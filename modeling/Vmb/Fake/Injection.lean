/-
# Vmb.Fake.Injection -- rigged failures

A method is rigged to fail by the number of the call, and the fake numbers the calls of each method
from its own beginning: `maybe_fail` looks a failure up under the method's counter, which has moved
with every call so far, while `fail_nth` files it under `skip` itself. So the failure comes when the
counter reaches `skip` (`injected_failNth`), which is the `skip`-th future call only for a method that
has not been called (`failsAsRigged_iff`).
-/
import Vmb.Fake.Step

namespace Vmb.Fake

open Vmb.Lib Vmb.Core

/-! ## The failures a run of calls meets -/

/-- The method `maybe_fail` is asked about in a call. -/
def methodOf : PortCall → Option Method
  | .startup => some .startup
  | .listCameras => some .listCameras
  | .openCamera _ => some .openCamera
  | .loadSettings _ _ => some .loadSettings
  | .runFeatureCommand _ _ => some .runFeatureCommand
  | .payloadSize _ => some .payloadSize
  | .announceFrame _ _ => some .announceFrame
  | .captureStart _ => some .captureStart
  | .queueFrame _ _ _ => some .queueFrame
  | .registerDiscovery _ => some .registerDiscovery
  | _ => none

/-- The number of calls of `method` in a sequence of port calls. -/
def callsOf (method : Method) (cs : List PortCall) : Nat :=
  cs.countP fun c => methodOf c = some method

namespace FakeState

/-- `fail_next`. -/
def failNext (s : FakeState) (method : Method) (err : VmbError) : FakeState := s.failNth method 0 err

/-- The state after a sequence of port calls. -/
def after (s : FakeState) (cs : List PortCall) : FakeState :=
  cs.foldl (fun s c => (fakeVmbRuntime s c).2) s

/-- The failure `maybe_fail` injects into a call made now. -/
def injected (s : FakeState) (c : PortCall) : Option VmbError := (methodOf c).bind s.rigged

/-- No failure of `method` is rigged. -/
def NonePending (s : FakeState) (method : Method) : Prop :=
  ∀ i, s.config.failures.lookup (method, i) = none

end FakeState

/-- What rigging `err` for the `skip`-th future call of `method` promises. -/
structure FailsAsRigged (s : FakeState) (method : Method) (skip : UInt64) (err : VmbError) : Prop where
  /-- The `skip`-th call from now on returns the error. -/
  hits : ∀ cs c, methodOf c = some method → callsOf method cs = skip.toNat →
    Fails err c (fakeVmbRuntime ((s.failNth method skip err).after cs) c).1
  /-- No other call of the method meets a failure. -/
  misses : ∀ cs c, methodOf c = some method → callsOf method cs ≠ skip.toNat →
    ((s.failNth method skip err).after cs).injected c = none
  /-- The calls of the other methods meet the failures they meet anyway. -/
  others : ∀ cs c, methodOf c ≠ some method →
    ((s.failNth method skip err).after cs).injected c = (s.after cs).injected c

/-! ## One call -/

/-- The configuration once a call of `method` is counted. -/
def Config.count (config : Config) (method : Method) : Config :=
  { config with
    counters := Function.update config.counters method (config.counters method + 1)
    failures := config.failures.erase (method, UInt64.ofNat (config.counters method)) }

/-- A call of `method` that records itself, fails if that is rigged, and else goes on with `body`. -/
def guarded {α : Type} (s : FakeState) (call : FakeCall) (method : Method) (fail : VmbError → α)
    (body : FakeState → α × FakeState) : α × FakeState :=
  match (s.record call).maybeFail method with
  | (.error e, s) => (fail e, s)
  | (.ok (), s) => body s

section Guarded

variable {α : Type} (s : FakeState) (call : FakeCall) {method : Method} {fail : VmbError → α}
  {body : FakeState → α × FakeState}

theorem guarded_of_some {e : VmbError} (h : s.rigged method = some e) :
    guarded s call method fail body = (fail e, s.books (s.config.count method) (s.calls ++ [call])) := by
  have hlookup : (s.record call).config.failures.lookup
      (method, UInt64.ofNat ((s.record call).config.counters method)) = some e := h
  simp only [guarded, FakeState.maybeFail, hlookup]
  rfl

theorem guarded_of_none (h : s.rigged method = none) :
    guarded s call method fail body = body (s.books (s.config.count method) (s.calls ++ [call])) := by
  have hlookup : (s.record call).config.failures.lookup
      (method, UInt64.ofNat ((s.record call).config.counters method)) = none := h
  -- nothing is rigged under this number, so there is nothing to use up
  have hkeep : s.config.failures.erase (method, UInt64.ofNat (s.config.counters method)) =
      s.config.failures := erase_of_lookup_none h
  have hcount : s.config.count method = { s.config with
      counters := Function.update s.config.counters method (s.config.counters method + 1) } := by
    simp only [Config.count, hkeep]
  simp only [guarded, FakeState.maybeFail, hlookup, hcount]
  rfl

theorem guarded_config (hbody : ∀ s, (body s).2.config = s.config) :
    (guarded s call method fail body).2.config = s.config.count method := by
  rcases h : s.rigged method with - | e
  · rw [guarded_of_none s call h]
    exact hbody _
  · rw [guarded_of_some s call h]
    rfl

theorem guarded_fails {e : VmbError} (h : s.rigged method = some e) :
    (guarded s call method fail body).1 = fail e :=
  congrArg Prod.fst (guarded_of_some s call h)

/-- The methods that do nothing else. -/
theorem guarded_ok (s : FakeState) (call : FakeCall) (method : Method) :
    guarded s call method .error (fun s => (.ok (), s)) = (s.record call).maybeFail method := by
  unfold guarded
  rcases (s.record call).maybeFail method with ⟨e | ⟨⟩, s'⟩ <;> rfl

end Guarded

/-- **A call is counted, and its failure used up.** -/
theorem fakeVmbRuntime_config (s : FakeState) (c : PortCall) :
    (fakeVmbRuntime s c).2.config = (methodOf c).elim s.config s.config.count := by
  cases c with
  | startup =>
      refine guarded_config s .startup fun s => ?_
      show (if s.started then _ else _ : Result Unit × FakeState).2.config = _
      split <;> rfl
  | listCameras => exact guarded_config s .listCameras fun _ => rfl
  | openCamera id =>
      refine guarded_config s (.openCamera id) fun s => ?_
      simp only [FakeState.nextId]
      split_ifs <;> rfl
  | loadSettings h path =>
      show ((s.record (.loadSettings h path)).maybeFail .loadSettings).2.config = _
      rw [← guarded_ok]
      exact guarded_config s (.loadSettings h path) fun _ => rfl
  | runFeatureCommand h name =>
      show ((s.record (.runFeatureCommand h name)).maybeFail .runFeatureCommand).2.config = _
      rw [← guarded_ok]
      exact guarded_config s (.runFeatureCommand h name) fun _ => rfl
  | payloadSize h => exact guarded_config s (.payloadSize h) fun _ => rfl
  | announceFrame h size => exact guarded_config s (.announceFrame h size) fun _ => rfl
  | captureStart h => exact guarded_config s (.captureStart h) fun _ => rfl
  | queueFrame h slot cb => exact guarded_config s (.queueFrame h slot cb) fun _ => rfl
  | registerDiscovery cb => exact guarded_config s (.registerDiscovery cb) fun _ => rfl
  | _ => rfl

/-- **An injected failure is what the call returns.** -/
theorem fails_of_injected {s : FakeState} {c : PortCall} {e : VmbError} (h : s.injected c = some e) :
    Fails e c (fakeVmbRuntime s c).1 := by
  cases c with
  | startup => exact guarded_fails s .startup h
  | listCameras => exact guarded_fails s .listCameras h
  | openCamera id => exact guarded_fails s (.openCamera id) h
  | loadSettings camera path =>
      show ((s.record (.loadSettings camera path)).maybeFail .loadSettings).1 = .error e
      rw [← guarded_ok]
      exact guarded_fails s (.loadSettings camera path) h
  | runFeatureCommand camera name =>
      show ((s.record (.runFeatureCommand camera name)).maybeFail .runFeatureCommand).1 = .error e
      rw [← guarded_ok]
      exact guarded_fails s (.runFeatureCommand camera name) h
  | payloadSize camera => exact guarded_fails s (.payloadSize camera) h
  | announceFrame camera size => exact guarded_fails s (.announceFrame camera size) h
  | captureStart camera => exact guarded_fails s (.captureStart camera) h
  | queueFrame camera slot cb => exact guarded_fails s (.queueFrame camera slot cb) h
  | registerDiscovery cb => exact guarded_fails s (.registerDiscovery cb) h
  | _ => cases h

/-! ## A sequence of calls -/

theorem callsOf_cons (method : Method) (c : PortCall) (cs : List PortCall) :
    callsOf method (c :: cs) = callsOf method cs + if methodOf c = some method then 1 else 0 := by
  simp [callsOf, List.countP_cons]

/-- A call counts for its own method. -/
theorem step_counters (s : FakeState) (c : PortCall) (method : Method) :
    (fakeVmbRuntime s c).2.config.counters method =
      s.config.counters method + if methodOf c = some method then 1 else 0 := by
  rw [fakeVmbRuntime_config]
  rcases methodOf c with - | m
  · rfl
  · by_cases hm : m = method
    · subst hm
      simp [Config.count]
    · simp [Config.count, hm, Function.update_of_ne (Ne.symm hm)]

theorem after_counters (s : FakeState) (cs : List PortCall) (method : Method) :
    (s.after cs).config.counters method = s.config.counters method + callsOf method cs := by
  induction cs generalizing s with
  | nil => rfl
  | cons c cs ih =>
      have hrest := ih (fakeVmbRuntime s c).2
      rw [step_counters] at hrest
      rw [callsOf_cons]
      refine hrest.trans ?_
      omega

/-- One of `n` calls, counted from `start`, has the number `i`. -/
def Reaches (start n : Nat) (i : UInt64) : Prop := ∃ j < n, UInt64.ofNat (start + j) = i

theorem reaches_succ {start n : Nat} {i : UInt64} :
    Reaches start (n + 1) i ↔ UInt64.ofNat start = i ∨ Reaches (start + 1) n i := by
  constructor
  · rintro ⟨j, hj, hi⟩
    rcases j with - | j
    · exact Or.inl hi
    · refine Or.inr ⟨j, by omega, ?_⟩
      rw [← hi, Nat.succ_add_eq_add_succ]
  · rintro (hi | ⟨j, hj, hi⟩)
    · exact ⟨0, by omega, hi⟩
    · refine ⟨j + 1, by omega, ?_⟩
      rw [← hi, Nat.succ_add_eq_add_succ]

/-- The numbers come back after `2^64` calls. -/
theorem reaches_next {start n : Nat} : Reaches start n (UInt64.ofNat (start + n)) ↔ 2 ^ 64 ≤ n := by
  constructor
  · rintro ⟨j, hj, hi⟩
    have hmod := congrArg UInt64.toNat hi
    rw [UInt64.toNat_ofNat', UInt64.toNat_ofNat'] at hmod
    omega
  · intro hn
    refine ⟨n - 2 ^ 64, by omega, UInt64.toNat_inj.mp ?_⟩
    rw [UInt64.toNat_ofNat', UInt64.toNat_ofNat']
    omega

/-- One call uses up the failure with its own number. -/
theorem step_lookup (s : FakeState) (c : PortCall) (method : Method) (i : UInt64) (e : VmbError) :
    (fakeVmbRuntime s c).2.config.failures.lookup (method, i) = some e ↔
      s.config.failures.lookup (method, i) = some e ∧
        ¬ (methodOf c = some method ∧ UInt64.ofNat (s.config.counters method) = i) := by
  rw [fakeVmbRuntime_config]
  rcases methodOf c with - | m
  · simp
  · refine lookup_erase_eq_some.trans (and_comm.trans (and_congr_right fun _ => not_congr ?_))
    constructor
    · intro h
      cases h
      exact ⟨rfl, rfl⟩
    · rintro ⟨hm, hi⟩
      cases hm
      rw [hi]

/-- The sequence uses up the failures with the numbers of its calls, and no other. -/
theorem after_lookup (s : FakeState) (cs : List PortCall) (method : Method) (i : UInt64)
    (e : VmbError) :
    (s.after cs).config.failures.lookup (method, i) = some e ↔
      s.config.failures.lookup (method, i) = some e ∧
        ¬ Reaches (s.config.counters method) (callsOf method cs) i := by
  induction cs generalizing s with
  | nil => simp [FakeState.after, Reaches, callsOf]
  | cons c cs ih =>
      refine (ih (fakeVmbRuntime s c).2).trans ?_
      rw [step_lookup, step_counters, callsOf_cons]
      by_cases hc : methodOf c = some method
      -- a call of the method takes its number away, and the rest goes on from the next one
      · simp only [hc, if_true, true_and, reaches_succ, not_or, and_assoc]
      · simp only [hc, if_false, false_and, not_false_eq_true, and_true, Nat.add_zero]

/-- **The failure a later call meets** is the one rigged under its number. -/
theorem injected_after (s : FakeState) (cs : List PortCall) {c : PortCall} {method : Method}
    (hc : methodOf c = some method) (e : VmbError) :
    (s.after cs).injected c = some e ↔
      callsOf method cs < 2 ^ 64 ∧ s.config.failures.lookup
        (method, UInt64.ofNat (s.config.counters method + callsOf method cs)) = some e := by
  have hrigged : (s.after cs).injected c = (s.after cs).rigged method := by
    rw [FakeState.injected, hc]
    rfl
  rw [hrigged, FakeState.rigged, after_counters, after_lookup, reaches_next, not_le, and_comm]

/-! ## Rigging a failure -/

/-- The calls of the method until its counter holds `skip`. -/
theorem reaches_skip {start n : Nat} {skip : UInt64} :
    n < 2 ^ 64 ∧ UInt64.ofNat (start + n) = skip ↔ n = (skip - UInt64.ofNat start).toNat := by
  have hskip := skip.toNat_lt
  rw [← UInt64.toNat_inj, UInt64.toNat_sub, UInt64.toNat_ofNat', UInt64.toNat_ofNat']
  omega

/-- **A rigged failure comes when the counter of the method holds `skip`**, if no other is pending. -/
theorem injected_failNth {s : FakeState} {method : Method} (hnone : s.NonePending method)
    (skip : UInt64) (err : VmbError) (cs : List PortCall) {c : PortCall}
    (hc : methodOf c = some method) (e : VmbError) :
    ((s.failNth method skip err).after cs).injected c = some e ↔
      callsOf method cs = (skip - UInt64.ofNat (s.config.counters method)).toNat ∧ err = e := by
  rw [injected_after _ cs hc, ← reaches_skip, and_assoc]
  refine and_congr_right fun _ => lookup_insert_eq_some.trans ?_
  rw [hnone]
  simp only [reduceCtorEq, and_false, or_false, Prod.mk.injEq, true_and]
  rfl

/-- The other methods meet what they meet anyway. -/
theorem injected_failNth_of_ne (s : FakeState) {method : Method} (skip : UInt64) (err : VmbError)
    (cs : List PortCall) {c : PortCall} (hc : methodOf c ≠ some method) :
    ((s.failNth method skip err).after cs).injected c = (s.after cs).injected c := by
  rcases hm : methodOf c with - | m
  · simp only [FakeState.injected, hm, Option.bind_none]
  · have hne : m ≠ method := fun h => hc (hm.trans (congrArg some h))
    apply Option.ext
    intro e
    rw [injected_after _ cs hm, injected_after _ cs hm]
    refine and_congr_right fun _ => ?_
    have hkey : (m, UInt64.ofNat (s.config.counters m + callsOf m cs)) ≠ (method, skip) :=
      fun h => hne (congrArg Prod.fst h)
    exact iff_of_eq (congrArg (· = some e) (Finmap.lookup_insert_of_ne s.config.failures hkey))

theorem exists_call (method : Method) : ∃ c, methodOf c = some method := by
  have camera : CameraHandle := ⟨1, by decide⟩
  cases method with
  | startup => exact ⟨.startup, rfl⟩
  | listCameras => exact ⟨.listCameras, rfl⟩
  | openCamera => exact ⟨.openCamera "", rfl⟩
  | loadSettings => exact ⟨.loadSettings camera [], rfl⟩
  | runFeatureCommand => exact ⟨.runFeatureCommand camera "", rfl⟩
  | payloadSize => exact ⟨.payloadSize camera, rfl⟩
  | announceFrame => exact ⟨.announceFrame camera 0, rfl⟩
  | captureStart => exact ⟨.captureStart camera, rfl⟩
  | queueFrame => exact ⟨.queueFrame camera ⟨0⟩ ⟨0⟩, rfl⟩
  | registerDiscovery => exact ⟨.registerDiscovery ⟨0⟩, rfl⟩

/-- **Only a method that has not been called fails as rigged.** The failure comes in the `skip`-th
future call exactly if the counter of the method is still zero. -/
theorem failsAsRigged_iff (s : FakeState) (method : Method) (skip : UInt64) (err : VmbError)
    (hnone : s.NonePending method) :
    FailsAsRigged s method skip err ↔ UInt64.ofNat (s.config.counters method) = 0 := by
  constructor
  · intro h
    -- The failure does come, in the call that brings the counter to `skip`.
    obtain ⟨c, hc⟩ := exists_call method
    have hcalls : ∀ n, callsOf method (List.replicate n c) = n := by
      intro n
      simp [callsOf, List.countP_replicate, hc]
    have hcomes := (injected_failNth hnone skip err
      (List.replicate (skip - UInt64.ofNat (s.config.counters method)).toNat c) hc err).mpr
      ⟨hcalls _, rfl⟩
    by_contra hzero
    have hne : (skip - UInt64.ofNat (s.config.counters method)).toNat ≠ skip.toNat := by
      intro heq
      have hself := UInt64.toNat_inj.mp heq
      exact hzero (sub_eq_self.mp hself)
    have hmiss := h.misses _ c hc ((hcalls _).trans_ne hne)
    rw [hcomes] at hmiss
    cases hmiss
  · intro hzero
    have hwhen : ∀ cs c, methodOf c = some method → ∀ e,
        ((s.failNth method skip err).after cs).injected c = some e ↔
          callsOf method cs = skip.toNat ∧ err = e := by
      intro cs c hc e
      rw [injected_failNth hnone skip err cs hc, hzero, sub_zero]
    refine ⟨?_, ?_, ?_⟩
    · intro cs c hc hn
      exact fails_of_injected ((hwhen cs c hc err).mpr ⟨hn, rfl⟩)
    · intro cs c hc hn
      apply Option.eq_none_iff_forall_ne_some.mpr
      intro e he
      exact hn ((hwhen cs c hc e).mp he).1
    · intro cs c hc
      exact injected_failNth_of_ne s skip err cs hc

/-- An injected failure. -/
def boom : VmbError := .sdk (-1) "boom"

/-- In a new fake the third start from now on fails. -/
theorem failsAsRigged_iff_new :
    FakeState.new.NonePending .startup ∧ FailsAsRigged .new .startup 2 boom := by
  have hnone : FakeState.new.NonePending .startup := fun i => Finmap.lookup_empty _
  exact ⟨hnone, (failsAsRigged_iff .new .startup 2 boom hnone).mpr rfl⟩

/-- A fake whose cameras have been listed once. -/
def listedOnce : FakeState := FakeState.new.after [.listCameras]

/-- `fail_next` on a method that has been called: the next call succeeds. -/
theorem not_failsAsRigged_listedOnce :
    listedOnce.NonePending .listCameras ∧
      (fakeVmbRuntime (listedOnce.failNext .listCameras boom) .listCameras).1 = .ok [] ∧
      ¬ FailsAsRigged listedOnce .listCameras 0 boom := by
  have hnone : listedOnce.NonePending .listCameras := by
    intro i
    apply Option.eq_none_iff_forall_ne_some.mpr
    intro e he
    have hnew := ((step_lookup .new .listCameras .listCameras i e).mp he).1
    rw [show FakeState.new.config.failures = ∅ from rfl, Finmap.lookup_empty] at hnew
    cases hnew
  have hok : (fakeVmbRuntime (listedOnce.failNext .listCameras boom) .listCameras).1 =
      .ok [] := rfl
  refine ⟨hnone, hok, fun h => ?_⟩
  have hfails := h.hits [] .listCameras rfl rfl
  cases hok.symm.trans hfails

end Vmb.Fake

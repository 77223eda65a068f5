/-
# Vmb.Fake.Emission -- which discovery callbacks an event reaches

`emit_discovery` is documented to drive "every registered discovery callback", but it goes through
the table of installed callbacks and never looks at the registrations. An installed callback gets the
event whether or not it is registered, and the closures after one that panics do not get it, so the
event reaches the registered callbacks and no others exactly if these are the ones reached
(`emitsToRegistered_iff`): without panics, if every installed callback is registered
(`emitsTo_iff_registered`). The registrations are at hand: below `2^64` identifiers `discovery_regs`
lists the callbacks in use (`lookup_discoveryRegs_iff`).
-/
import Vmb.Core.Conformance
import Vmb.Fake.Driving
import Vmb.Fake.Resources

namespace Vmb.Fake

open Vmb.Lib Vmb.Core

/-! ## The closures an emission invokes -/

section Emission

variable {ends : Invocation → Exit Unit} {event : DiscoveryEvent}
  {callbacks : List (DiscoveryCallbackId × DiscoveryCallback)}
  {x : DiscoveryCallbackId × DiscoveryCallback}

/-- No closure before the entry panics. -/
def Reached (ends : Invocation → Exit Unit) (event : DiscoveryEvent)
    (callbacks : List (DiscoveryCallbackId × DiscoveryCallback))
    (x : DiscoveryCallbackId × DiscoveryCallback) : Prop :=
  ∃ pre post, callbacks = pre ++ x :: post ∧
    ∀ y ∈ pre, ends (.discovery y.1 y.2 event) = .returned ()

theorem Reached.mem (h : Reached ends event callbacks x) : x ∈ callbacks := by
  obtain ⟨pre, post, rfl, -⟩ := h
  exact List.mem_append_right _ List.mem_cons_self

theorem reached_cons {y : DiscoveryCallbackId × DiscoveryCallback} :
    Reached ends event (y :: callbacks) x ↔
      x = y ∨ ends (.discovery y.1 y.2 event) = .returned () ∧ Reached ends event callbacks x := by
  constructor
  · rintro ⟨pre, post, hcallbacks, hpre⟩
    rcases List.cons_eq_append_iff.mp hcallbacks with ⟨rfl, hcallbacks⟩ | ⟨pre', rfl, rfl⟩
    · cases hcallbacks
      exact Or.inl rfl
    · rw [List.forall_mem_cons] at hpre
      exact Or.inr ⟨hpre.1, pre', post, rfl, hpre.2⟩
  · rintro (rfl | ⟨hreturned, pre, post, rfl, hpre⟩)
    · exact ⟨[], callbacks, rfl, fun y hy => absurd hy List.not_mem_nil⟩
    · exact ⟨y :: pre, post, rfl, List.forall_mem_cons.mpr ⟨hreturned, hpre⟩⟩

/-- The first closure is invoked, and the others if it returns. -/
theorem invocations_emitDiscovery_cons :
    invocations ends (FakeState.emitDiscovery event (x :: callbacks)) =
      .discovery x.1 x.2 event ::
        if ends (.discovery x.1 x.2 event) = .returned () then
          invocations ends (FakeState.emitDiscovery event callbacks)
        else [] := by
  obtain ⟨id, cb⟩ := x
  rcases hends : ends (.discovery id cb event) with ⟨⟨⟩⟩ | m
  · simp [invocations, FakeState.emitDiscovery, Prog.history, closures, hends]
  · simp [invocations, FakeState.emitDiscovery, Prog.history, closures, hends]

/-- The event goes to the entries that are reached. -/
theorem mem_invocations_iff {call : Invocation} :
    call ∈ invocations ends (FakeState.emitDiscovery event callbacks) ↔
      ∃ x, Reached ends event callbacks x ∧ call = .discovery x.1 x.2 event := by
  induction callbacks with
  | nil =>
      refine iff_of_false List.not_mem_nil ?_
      rintro ⟨x, hreached, -⟩
      exact absurd hreached.mem List.not_mem_nil
  | cons y callbacks ih =>
      rw [invocations_emitDiscovery_cons, List.mem_cons]
      simp only [reached_cons, or_and_right, exists_or, exists_eq_left]
      refine or_congr_right ?_
      by_cases hreturned : ends (.discovery y.1 y.2 event) = .returned ()
      · simp only [hreturned, if_true, ih, true_and]
      · simp [hreturned]

/-- No entry gets the event twice. -/
theorem nodup_invocations (h : (callbacks.map Prod.fst).Nodup) :
    (invocations ends (FakeState.emitDiscovery event callbacks)).Nodup := by
  induction callbacks with
  | nil => exact List.nodup_nil
  | cons y callbacks ih =>
      rw [List.map_cons, List.nodup_cons] at h
      rw [invocations_emitDiscovery_cons, List.nodup_cons]
      by_cases hreturned : ends (.discovery y.1 y.2 event) = .returned ()
      · rw [if_pos hreturned]
        refine ⟨fun hmem => ?_, ih h.2⟩
        obtain ⟨x, hreached, hcall⟩ := mem_invocations_iff.mp hmem
        have hsame : y.1 = x.1 := (Invocation.discovery.inj hcall).1
        exact h.1 (hsame ▸ List.mem_map_of_mem hreached.mem)
      · rw [if_neg hreturned]
        exact ⟨List.not_mem_nil, List.nodup_nil⟩

end Emission

/-! ## The registrations -/

/-- The entries of `discovery_regs` are the registrations that have not been undone. -/
def RegsOf (s : FakeState) (log : List (Event Port)) : Prop :=
  ∀ r d, s.discoveryRegs.lookup r = some d ↔ Since (registersUnder d r ·) (unregisters r ·) log

theorem regsOf_append {s s' : FakeState} {log : List (Event Port)} {e : Event Port}
    (h : RegsOf s log) (hregs : s'.discoveryRegs = s.discoveryRegs)
    (hreg : ∀ r d, registersUnder d r e = false) (hunreg : ∀ r, unregisters r e = false) :
    RegsOf s' (log ++ [e]) := by
  intro r d
  rw [since_append, hregs, h r d, hreg r d, hunreg r]
  simp

/-- A step keeps it, as long as the counter has not wrapped. -/
theorem RegsOf.step {s s' : FakeState} {c : PortCall} {r : c.Resp} {log : List (Event Port)}
    (h : RegsOf s log) (hcounted : Counted s) (heff : Effect s c r s') (hids : s'.counter ≤ 2 ^ 64) :
    RegsOf s' (log ++ [⟨c, r⟩]) := by
  cases heff with
  | failed c e r hr he =>
      cases c with
      | registerDiscovery cb =>
          obtain rfl : r = .error e := hr
          exact regsOf_append h rfl (fun _ _ => rfl) fun _ => rfl
      | unregisterDiscovery r' => exact absurd hr id
      | _ => exact regsOf_append h rfl (fun _ _ => rfl) fun _ => rfl
  | quiet c r hr =>
      cases c with
      | registerDiscovery cb => exact absurd hr id
      | unregisterDiscovery r' => exact absurd hr id
      | _ => exact regsOf_append h rfl (fun _ _ => rfl) fun _ => rfl
  | registered cb =>
      have hfresh : s.discoveryRegs.lookup ⟨s.currentId⟩ = none :=
        hcounted.discoveryRegs.fresh hids rfl
      intro r' d
      rw [since_append, lookup_insert_eq_some, ← h r' d]
      by_cases hr' : r' = ⟨s.currentId⟩
      · subst hr'
        simp [hfresh, registersUnder]
      · simp [hr', Ne.symm hr', registersUnder, unregisters]
  | unregistered r =>
      intro r' d
      rw [since_append, lookup_erase_eq_some, ← h r' d]
      have hno : registersUnder d r' ⟨.unregisterDiscovery r, ()⟩ = false := rfl
      have hundone : unregisters r' ⟨.unregisterDiscovery r, ()⟩ = true ↔ r = r' :=
        decide_eq_true_iff
      rw [hno, hundone, and_comm, ne_comm]
      simp
  | _ => exact regsOf_append h rfl (fun _ _ => rfl) fun _ => rfl

/-- **The registrations are at hand.** After every run below `2^64` identifiers the callbacks in use
are those `discovery_regs` names. -/
theorem lookup_discoveryRegs_iff (config : Config) (cs : List PortCall)
    (hids : ((FakeState.configured config).after cs).counter ≤ 2 ^ 64) (d : DiscoveryCallbackId) :
    (∃ r, ((FakeState.configured config).after cs).discoveryRegs.lookup r = some d) ↔
      DiscoveryInUse ((FakeState.configured config).trace cs) d := by
  have hrun : Counted ((FakeState.configured config).after cs) ∧
      RegsOf ((FakeState.configured config).after cs) ((FakeState.configured config).trace cs) := by
    clear d
    induction cs using List.reverseRecOn with
    | nil =>
        refine ⟨counted_configured config, fun r d => iff_of_false ?_ since_nil⟩
        intro hlookup
        cases (Finmap.lookup_empty r).symm.trans hlookup
    | append_singleton cs c ih =>
        rw [FakeState.after_append] at hids ⊢
        obtain ⟨hcounted, hregs⟩ := ih (counter_reflects _ c hids)
        rw [FakeState.trace_append]
        obtain ⟨s₁, config', calls, heff, -, hstate⟩ :=
          fakeVmbRuntime_step ((FakeState.configured config).after cs) c
        rw [hstate] at hids ⊢
        have hregs' : RegsOf s₁ _ := hregs.step hcounted heff hids
        exact ⟨{ heff.counted hcounted with }, hregs'⟩
  exact exists_congr fun r => hrun.2 r d

/-! ## Emissions -/

/-- The event reaches every installed callback that is registered, once, and no other. -/
structure EmitsToRegistered (s : FakeState) (log : List (Event Port)) (event : DiscoveryEvent)
    (callbacks : List (DiscoveryCallbackId × DiscoveryCallback)) (ends : Invocation → Exit Unit) :
    Prop where
  once : ∀ d f, s.discoveryCallbacks.lookup d = some f → DiscoveryInUse log d →
    (invocations ends (FakeState.emitDiscovery event callbacks)).count (.discovery d f event) = 1
  only : ∀ call ∈ invocations ends (FakeState.emitDiscovery event callbacks), ∃ d f,
    call = .discovery d f event ∧ s.discoveryCallbacks.lookup d = some f ∧ DiscoveryInUse log d

/-- In a state whose callbacks are listed, the event reaches the registered ones and no others exactly if
these are the ones reached. -/
theorem emitsTo_iff_reached {s : FakeState} {log : List (Event Port)} {event : DiscoveryEvent}
    {callbacks : List (DiscoveryCallbackId × DiscoveryCallback)} {ends : Invocation → Exit Unit}
    (hlisted : s.Listed callbacks) :
    EmitsToRegistered s log event callbacks ends ↔
      ∀ x ∈ callbacks, DiscoveryInUse log x.1 ↔ Reached ends event callbacks x := by
  constructor
  · rintro ⟨honce, honly⟩ ⟨d, f⟩ hx
    constructor
    · intro huse
      have hcount := honce d f ((hlisted.mem_iff d f).mp hx) huse
      have hmem := List.count_pos_iff.mp (hcount.symm ▸ Nat.one_pos)
      obtain ⟨x, hreached, hcall⟩ := mem_invocations_iff.mp hmem
      cases hcall
      exact hreached
    · intro hreached
      obtain ⟨d', f', hcall, -, huse⟩ := honly _ (mem_invocations_iff.mpr ⟨_, hreached, rfl⟩)
      cases hcall
      exact huse
  · intro h
    refine ⟨fun d f hf huse => ?_, fun call hcall => ?_⟩
    · have hreached := (h (d, f) ((hlisted.mem_iff d f).mpr hf)).mp huse
      exact List.count_eq_one_of_mem (nodup_invocations hlisted.nodup)
        (mem_invocations_iff.mpr ⟨_, hreached, rfl⟩)
    · obtain ⟨⟨d, f⟩, hreached, rfl⟩ := mem_invocations_iff.mp hcall
      exact ⟨d, f, rfl, (hlisted.mem_iff d f).mp hreached.mem,
        (h (d, f) hreached.mem).mpr hreached⟩

/-- Without panics every listed callback is reached. -/
theorem reached_of_returns {ends : Invocation → Exit Unit} {event : DiscoveryEvent}
    {callbacks : List (DiscoveryCallbackId × DiscoveryCallback)}
    (hreturns : ∀ call, ends call = .returned ()) {x : DiscoveryCallbackId × DiscoveryCallback}
    (hx : x ∈ callbacks) : Reached ends event callbacks x := by
  obtain ⟨pre, post, rfl⟩ := List.append_of_mem hx
  exact ⟨pre, post, rfl, fun y _ => hreturns _⟩

/-- **Without panics, the event reaches the registered callbacks and no others exactly if every installed
callback has a live registration.** -/
theorem emitsTo_iff_registered {s : FakeState} {log : List (Event Port)} {event : DiscoveryEvent}
    {callbacks : List (DiscoveryCallbackId × DiscoveryCallback)} {ends : Invocation → Exit Unit}
    (hlisted : s.Listed callbacks) (hreturns : ∀ call, ends call = .returned ()) :
    EmitsToRegistered s log event callbacks ends ↔
      ∀ d f, s.discoveryCallbacks.lookup d = some f → DiscoveryInUse log d := by
  rw [emitsTo_iff_reached hlisted]
  constructor
  · intro h d f hf
    have hmem := (hlisted.mem_iff d f).mpr hf
    exact (h (d, f) hmem).mpr (reached_of_returns hreturns hmem)
  · rintro h ⟨d, f⟩ hmem
    exact iff_of_true (h d f ((hlisted.mem_iff d f).mp hmem)) (reached_of_returns hreturns hmem)

/-- **The event reaches the registered callbacks and no others exactly if these are the ones
reached.** Over every run of port calls, with every failure rigged. -/
theorem emitsToRegistered_iff (config : Config) (cs : List PortCall) (event : DiscoveryEvent)
    {callbacks : List (DiscoveryCallbackId × DiscoveryCallback)} (ends : Invocation → Exit Unit)
    (hlisted : ((FakeState.configured config).after cs).Listed callbacks) :
    EmitsToRegistered ((FakeState.configured config).after cs)
        ((FakeState.configured config).trace cs) event callbacks ends ↔
      ∀ x ∈ callbacks, DiscoveryInUse ((FakeState.configured config).trace cs) x.1 ↔
        Reached ends event callbacks x :=
  emitsTo_iff_reached hlisted

/-- A callback that is installed and registered. -/
def installedAndRegistered : List PortCall := [.installDiscoveryCallback ⟨7⟩, .registerDiscovery ⟨1⟩]

theorem listed_singleton {s : FakeState} {d : DiscoveryCallbackId} {f : DiscoveryCallback}
    (h : s.discoveryCallbacks = (∅ : Finmap _).insert d f) : s.Listed [(d, f)] := by
  refine ⟨List.nodup_singleton d, fun d' f' => ?_⟩
  rw [h, lookup_insert_eq_some, Finmap.lookup_empty]
  simp [eq_comm]

theorem emitsToRegistered_iff_registered :
    EmitsToRegistered (FakeState.new.after installedAndRegistered)
        (FakeState.new.trace installedAndRegistered) (.detected "DEV_1") [(⟨1⟩, ⟨7⟩)]
        (fun _ => .returned ()) ↔
      ∀ x ∈ [((⟨1⟩, ⟨7⟩) : DiscoveryCallbackId × DiscoveryCallback)],
        DiscoveryInUse (FakeState.new.trace installedAndRegistered) x.1 ↔
          Reached (fun _ => .returned ()) (.detected "DEV_1") [(⟨1⟩, ⟨7⟩)] x :=
  emitsToRegistered_iff FakeState.new.config installedAndRegistered (.detected "DEV_1")
    (fun _ => .returned ()) (listed_singleton rfl)

/-- A callback that was never registered gets the event. -/
theorem not_emitsToRegistered_unregistered :
    (FakeState.new.after [.installDiscoveryCallback ⟨7⟩]).Listed [(⟨1⟩, ⟨7⟩)] ∧
      FakeState.new.trace [.installDiscoveryCallback ⟨7⟩] =
        [⟨.installDiscoveryCallback ⟨7⟩, (⟨1⟩ : DiscoveryCallbackId)⟩] ∧
      invocations (fun _ => .returned ()) (FakeState.emitDiscovery (.detected "DEV_1") [(⟨1⟩, ⟨7⟩)]) =
        [.discovery ⟨1⟩ ⟨7⟩ (.detected "DEV_1")] ∧
      ¬ EmitsToRegistered (FakeState.new.after [.installDiscoveryCallback ⟨7⟩])
        (FakeState.new.trace [.installDiscoveryCallback ⟨7⟩]) (.detected "DEV_1") [(⟨1⟩, ⟨7⟩)]
        fun _ => .returned () := by
  refine ⟨listed_singleton rfl, rfl, rfl, fun h => ?_⟩
  obtain ⟨d, f, -, -, r, huse⟩ := h.only _ List.mem_cons_self
  obtain ⟨e, he, hreg⟩ := huse.exists_mem
  obtain rfl := List.mem_singleton.mp he
  cases hreg

end Vmb.Fake

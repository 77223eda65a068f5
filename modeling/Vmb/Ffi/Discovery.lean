/-
# Vmb.Ffi.Discovery -- several discovery subscriptions on one SDK registration

The SDK identifies an invalidation registration by its handle, feature name and callback function:
the unregister call takes no user context. The adapter registers every subscription under the same
three, so they share one slot of the SDK: a new subscription takes it over, and dropping any
subscription empties it. `conforms_delivers_iff` says exactly when an event still reaches the closures
of all live subscriptions.
-/
import Vmb.Core.Domain
import Vmb.Ffi.Step
import Vmb.Lib.Since
import Vmb.Lib.Tracks

namespace Vmb.Ffi

open Vmb.Lib Vmb.Core Vmb.Sdk

/-! ## The SDK -/

/-- What the SDK identifies an invalidation registration by. -/
abbrev InvalidationKey := VmbHandle × CString × Trampoline

/-- The invalidation registrations of the SDK with their user contexts, and the discovery event whose
features can be read at the moment. -/
structure InvalidationSdk where
  registered : List (InvalidationKey × Nat)
  event : Option DiscoveryEvent

/-- The registrations under other keys. -/
def InvalidationSdk.others (t : InvalidationSdk) (key : InvalidationKey) :
    List (InvalidationKey × Nat) :=
  t.registered.filter fun e => e.1 ≠ key

/-- An SDK that keeps one user context per key: registering a key again overwrites its context,
unregistering removes the key. Every call succeeds. -/
def invalidationApi : VmbApi InvalidationSdk := fun t c =>
  match c with
  | .vmbFeatureInvalidationRegister handle name callback userContext =>
    let key := (handle, name, callback)
    ((0 : Int32), { t with registered := t.others key ++ [(key, userContext)] })
  | .vmbFeatureInvalidationUnregister handle name callback =>
    ((0 : Int32), { t with registered := t.others (handle, name, callback) })
  | .vmbFeatureStringGet _ _ _ =>
    match t.event with
    | none => (⟨-10, [], 0⟩, t)
    | some ev => (⟨0, bytes (eventId ev) ++ [0],
        UInt32.ofNat ((bytes (eventId ev)).length + 1)⟩, t)
  | .vmbFeatureEnumGet _ _ =>
    match t.event with
    | none => ((-10, none), t)
    | some ev => ((0, CString.new (bytes (eventType ev))), t)
  | c => ((mockApi 1 c).1, t)

/-- On an event the SDK calls the callback of every registration with its context. -/
def deliveries (s : FfiState) (t : InvalidationSdk) (ev : DiscoveryEvent) : List Delivery :=
  t.registered.map fun e =>
    ((discoveryTrampoline s.heap e.1.1 e.2).run invalidationApi { t with event := some ev }).1

theorem invalidationApi_reads (t : InvalidationSdk) (ev : DiscoveryEvent) :
    Reads invalidationApi { t with event := some ev } ev :=
  ⟨fun _ _ => rfl, fun _ _ => rfl⟩

/-- The key of every registration of the adapter. -/
def discoveryKey : InvalidationKey := (gVmbHandle, discoveryFeature, .discoveryTrampoline)

/-! ## A client with subscriptions -/

/-- A live subscription: the registration object and the closure given for it. -/
structure Subscription where
  reg : DiscoveryRegistration
  closure : DiscoveryCallback
  deriving DecidableEq

/-- A client with its live subscriptions in the order they were made. `latest` says that no
registration the adapter knows has been dropped since the last one was made. -/
structure Session where
  live : List Subscription
  latest : Bool
  adapter : FfiState
  sdk : InvalidationSdk

/-- What happens in a session. -/
inductive Activity where
  | register (closure : DiscoveryCallback)
  /-- Drops the `k`-th live subscription. -/
  | drop (k : Nat)
  | event (ev : DiscoveryEvent)
  deriving DecidableEq

/-- The adapter has the registration in its table. -/
def Knows (s : FfiState) (reg : DiscoveryRegistration) : Prop :=
  ∃ h, reg.handle = some h ∧ h ∈ s.discoveryRegs

instance (s : FfiState) (reg : DiscoveryRegistration) : Decidable (Knows s reg) :=
  match hreg : reg.handle with
  | none => isFalse (by simp [Knows, hreg])
  | some h => decidable_of_iff (h ∈ s.discoveryRegs) (by simp [Knows, hreg])

namespace Session

def start : Session := ⟨[], false, .new, ⟨[], none⟩⟩

/-- One activity. An event runs the trampolines, which leave the adapter and the registrations as
they are. -/
def step (s : Session) : Activity → Session
  | .register closure =>
    let r := (registerCameraDiscovery closure).run (vmbFfiRuntime invalidationApi)
      (s.adapter, s.sdk)
    match r.1 with
    | .error _ => { s with adapter := r.2.1, sdk := r.2.2 }
    | .ok reg => ⟨s.live ++ [⟨reg, closure⟩], true, r.2.1, r.2.2⟩
  | .drop k =>
    match s.live[k]? with
    | none => s
    | some sub =>
      let r := sub.reg.drop.run (vmbFfiRuntime invalidationApi) (s.adapter, s.sdk)
      ⟨s.live.eraseIdx k, s.latest && !decide (Knows s.adapter sub.reg), r.2.1, r.2.2⟩
  | .event _ => s

def run (s : Session) : List Activity → Session
  | [] => s
  | a :: acts => (s.step a).run acts

/-- The event invokes the closure of every live subscription once, and nothing else. -/
def Delivers (s : Session) (ev : DiscoveryEvent) : Prop :=
  (deliveries s.adapter s.sdk ev).Perm (s.live.map fun sub => .invoked sub.closure ev)

instance (s : Session) (ev : DiscoveryEvent) : Decidable (s.Delivers ev) :=
  inferInstanceAs (Decidable (List.Perm _ _))

/-- Nobody subscribes, or there is one subscription and nothing has been dropped since it was
made. -/
def Undisturbed (s : Session) : Prop := s.live = [] ∨ s.live.length = 1 ∧ s.latest = true

end Session

/-! ## The adapter in a session -/

theorem registerDiscovery_of_lookup {s : FfiState} {cb : DiscoveryCallbackId}
    {f : DiscoveryCallback} (hcb : s.discoveryCallbacks.lookup cb = some f) :
    s.registerDiscovery cb =
      .call (S := VmbC) (.vmbFeatureInvalidationRegister gVmbHandle discoveryFeature
        .discoveryTrampoline s.heap.brk) fun rc =>
        match check rc with
        | .error e => .done (.error e, (s.intoRaw ⟨f⟩).2.fromRaw s.heap.brk)
        | .ok () => .done (.ok ⟨s.currentId⟩, { (s.intoRaw ⟨f⟩).2 with
            counter := s.counter + 1
            discoveryRegs :=
              s.discoveryRegs.insert ⟨s.currentId⟩ ⟨s.heap.brk, discoveryFeature⟩ }) := by
  unfold FfiState.registerDiscovery
  rw [hcb, FfiState.newDiscoveryFeature]
  show Prog.call (S := VmbC) _ _ = Prog.call (S := VmbC) _ _
  refine congrArg (Prog.call (S := VmbC) _) (funext fun rc => ?_)
  show (match check rc with | .error e => _ | .ok () => _ : SdkM _) = _
  cases check rc <;> rfl

theorem unregisterDiscovery_of_lookup {s : FfiState} {r : DiscoveryRegistrationHandle}
    {reg : DiscoveryRegState} (hreg : s.discoveryRegs.lookup r = some reg) :
    s.unregisterDiscovery r =
      .call (S := VmbC) (.vmbFeatureInvalidationUnregister gVmbHandle reg.feature
        .discoveryTrampoline) fun _ =>
        .done ((), { s with discoveryRegs := s.discoveryRegs.erase r }.fromRaw reg.ctxPtr) := by
  unfold FfiState.unregisterDiscovery
  rw [hreg]
  rfl

/-- The adapter after a successful registration of `f`. -/
def registeredState (s : FfiState) (f : DiscoveryCallback) : FfiState :=
  let s₁ := (s.installDiscoveryCallback f).2
  { (s₁.intoRaw ⟨f⟩).2 with
    counter := s₁.counter + 1
    discoveryRegs := s₁.discoveryRegs.insert ⟨s₁.currentId⟩ ⟨s₁.heap.brk, discoveryFeature⟩ }

theorem run_registerCameraDiscovery (s : FfiState) (t : InvalidationSdk) (f : DiscoveryCallback) :
    (registerCameraDiscovery f).run (vmbFfiRuntime invalidationApi) (s, t) =
      (.ok ⟨some ⟨(s.installDiscoveryCallback f).2.currentId⟩, some ⟨s.currentId⟩⟩,
        (registeredState s f,
          { t with registered := t.others discoveryKey ++ [(discoveryKey, s.heap.brk)] })) := by
  have hcb : (s.installDiscoveryCallback f).2.discoveryCallbacks.lookup ⟨s.currentId⟩ = some f :=
    Finmap.lookup_insert _
  have hport : vmbFfiRuntime invalidationApi ((s.installDiscoveryCallback f).2, t)
      (.registerDiscovery ⟨s.currentId⟩) =
      (.ok ⟨(s.installDiscoveryCallback f).2.currentId⟩, (registeredState s f,
        { t with registered := t.others discoveryKey ++ [(discoveryKey, s.heap.brk)] })) := by
    show (_, _) = _
    simp only [FfiState.dispatch]
    rw [registerDiscovery_of_lookup hcb]
    rfl
  unfold registerCameraDiscovery
  rw [port_bind, Prog.run_call]
  show Prog.run _ (port (.registerDiscovery ⟨s.currentId⟩) >>= _)
    ((s.installDiscoveryCallback f).2, t) = _
  rw [port_bind, Prog.run_call, hport]
  rfl

/-- What a drop does after unregistering. -/
def uninstallOf (cb : Option DiscoveryCallbackId) : PortM Unit :=
  match cb with
  | some id => port (.uninstallDiscoveryCallback id)
  | none => pure ()

theorem drop_eq (h : DiscoveryRegistrationHandle) (cb : Option DiscoveryCallbackId) :
    (⟨some h, cb⟩ : DiscoveryRegistration).drop =
      Prog.call (S := Port) (.unregisterDiscovery h) fun _ => uninstallOf cb := rfl

/-- Uninstalling the closure leaves the registrations alone. -/
theorem run_uninstallOf (s : FfiState) (t : InvalidationSdk) (cb : Option DiscoveryCallbackId) :
    ∃ s', ((uninstallOf cb).run (vmbFfiRuntime invalidationApi) (s, t)).2 = (s', t) ∧
      s'.discoveryRegs = s.discoveryRegs ∧ s'.heap = s.heap := by
  rcases cb with - | id
  · exact ⟨s, rfl, rfl, rfl⟩
  · exact ⟨s.uninstallDiscoveryCallback id, rfl, rfl, rfl⟩

/-- Dropping a registration the adapter does not know leaves the registrations alone. -/
theorem run_drop_unknown {s : FfiState} {reg : DiscoveryRegistration} (hreg : ¬ Knows s reg)
    (t : InvalidationSdk) :
    ∃ s', (reg.drop.run (vmbFfiRuntime invalidationApi) (s, t)).2 = (s', t) ∧
      s'.discoveryRegs = s.discoveryRegs ∧ s'.heap = s.heap := by
  rcases reg with ⟨- | h, cb⟩
  · exact run_uninstallOf s t cb
  · have hnone : s.discoveryRegs.lookup h = none :=
      Finmap.lookup_eq_none.mpr fun hmem => hreg ⟨h, rfl, hmem⟩
    have hport : vmbFfiRuntime invalidationApi (s, t) (.unregisterDiscovery h) = ((), (s, t)) := by
      show (_, _) = _
      simp only [FfiState.dispatch, FfiState.unregisterDiscovery, hnone]
      rfl
    rw [drop_eq, Prog.run_call, hport]
    exact run_uninstallOf s t cb

/-- Dropping a registration the adapter knows takes all of them from the SDK. -/
theorem run_drop_known {s : FfiState} {reg : DiscoveryRegistration} {h : DiscoveryRegistrationHandle}
    {ptr : Nat} (hreg : reg.handle = some h)
    (hl : s.discoveryRegs.lookup h = some ⟨ptr, discoveryFeature⟩) (t : InvalidationSdk) :
    ∃ s', (reg.drop.run (vmbFfiRuntime invalidationApi) (s, t)).2 =
        (s', { t with registered := t.others discoveryKey }) ∧
      s'.discoveryRegs = s.discoveryRegs.erase h ∧ s'.heap.brk = s.heap.brk := by
  rcases reg with ⟨handle, cb⟩
  subst hreg
  have hport : vmbFfiRuntime invalidationApi (s, t) (.unregisterDiscovery h) =
      ((), ({ s with discoveryRegs := s.discoveryRegs.erase h }.fromRaw ptr,
        { t with registered := t.others discoveryKey })) := by
    show (_, _) = _
    simp only [FfiState.dispatch]
    rw [unregisterDiscovery_of_lookup hl]
    rfl
  rw [drop_eq, Prog.run_call, hport]
  obtain ⟨s', hs', hregs, hheap⟩ := run_uninstallOf
    ({ s with discoveryRegs := s.discoveryRegs.erase h }.fromRaw ptr)
    { t with registered := t.others discoveryKey } cb
  exact ⟨s', hs', hregs, by rw [hheap]; rfl⟩

/-! ## The invariant of a session -/

/-- The newest subscription has the one slot of the SDK, and its context is alive. -/
structure Served (s : Session) (sub : Subscription) (ptr : Nat) : Prop where
  mem : sub ∈ s.live
  known : Knows s.adapter sub.reg
  registered : s.sdk.registered = [(discoveryKey, ptr)]
  ne_zero : ptr ≠ 0
  context : s.adapter.heap.contexts.lookup ptr = some ⟨sub.closure⟩

/-- The slot of the SDK is taken by the newest subscription, or it is empty. -/
structure SessionOk (s : Session) : Prop where
  brk_pos : 0 < s.adapter.heap.brk
  feature : ∀ h reg, s.adapter.discoveryRegs.lookup h = some reg → reg.feature = discoveryFeature
  latest : s.latest = true → ∃ sub ptr, Served s sub ptr
  disturbed : s.latest = false → s.sdk.registered = []

theorem sessionOk_start : SessionOk .start where
  brk_pos := Nat.one_pos
  feature h reg hl := by simp [Session.start, FfiState.new] at hl
  latest h := by cases h
  disturbed _ := rfl

/-- All registrations at the SDK are under the one key of the adapter. -/
theorem SessionOk.others_eq_nil {s : Session} (h : SessionOk s) : s.sdk.others discoveryKey = [] := by
  rcases hl : s.latest with - | -
  · rw [InvalidationSdk.others, h.disturbed hl]
    rfl
  · obtain ⟨sub, ptr, hserved⟩ := h.latest hl
    rw [InvalidationSdk.others, hserved.registered]
    simp

/-- The subscription a registration of `f` makes. -/
def registeredSub (s : FfiState) (f : DiscoveryCallback) : Subscription :=
  ⟨⟨some ⟨(s.installDiscoveryCallback f).2.currentId⟩, some ⟨s.currentId⟩⟩, f⟩

theorem sessionOk_register {s : Session} (h : SessionOk s) (f : DiscoveryCallback) :
    SessionOk (s.step (.register f)) := by
  have hstep : s.step (.register f) =
      ⟨s.live ++ [registeredSub s.adapter f], true, registeredState s.adapter f,
        { s.sdk with registered := [(discoveryKey, s.adapter.heap.brk)] }⟩ := by
    have hrun := run_registerCameraDiscovery s.adapter s.sdk f
    rw [h.others_eq_nil, List.nil_append] at hrun
    simp only [Session.step, hrun]
    rfl
  have hbrk := h.brk_pos
  rw [hstep]
  refine ⟨?_, fun h' reg hl => ?_,
    fun _ => ⟨registeredSub s.adapter f, s.adapter.heap.brk, ?_⟩, fun hl => absurd hl (by simp)⟩
  · show 0 < s.adapter.heap.brk + max 1 1
    omega
  · have hl' : (s.adapter.discoveryRegs.insert
        ⟨(s.adapter.installDiscoveryCallback f).2.currentId⟩
        ⟨s.adapter.heap.brk, discoveryFeature⟩).lookup h' = some reg := hl
    rcases lookup_insert_eq_some.mp hl' with ⟨-, rfl⟩ | ⟨-, hold⟩
    · rfl
    · exact h.feature h' reg hold
  · exact {
      mem := List.mem_append_right _ (List.mem_singleton_self _)
      known := ⟨_, rfl, Finmap.mem_insert.mpr (Or.inl rfl)⟩
      registered := rfl
      ne_zero := Nat.pos_iff_ne_zero.mp hbrk
      context := Finmap.lookup_insert _ }

/-- Another subscription than the newest is dropped: the newest one stays in the list. -/
theorem Served.mem_eraseIdx {s : Session} {sub sub' : Subscription} {ptr k : Nat}
    (h : Served s sub ptr) (hk : s.live[k]? = some sub') (hne : sub ≠ sub') :
    sub ∈ s.live.eraseIdx k := by
  obtain ⟨i, hi, hsub⟩ := List.getElem_of_mem h.mem
  refine (List.mem_eraseIdx_iff_getElem).mpr ⟨i, hi, ?_, hsub⟩
  rintro rfl
  rw [List.getElem?_eq_getElem hi, hsub] at hk
  exact hne (Option.some.inj hk)

/-- Dropping a known subscription empties the slot, whoever it belonged to. -/
theorem sessionOk_drop_known {s : Session} (h : SessionOk s) {k : Nat} {sub : Subscription}
    (hk : s.live[k]? = some sub) (hknown : Knows s.adapter sub.reg) :
    SessionOk (s.step (.drop k)) := by
  obtain ⟨h', hhandle, hmem⟩ := id hknown
  obtain ⟨⟨ptr, feature⟩, hl⟩ := Finmap.mem_iff.mp hmem
  obtain rfl : feature = discoveryFeature := h.feature h' _ hl
  obtain ⟨s', hrun, hregs, hbrk⟩ := run_drop_known hhandle hl s.sdk
  simp only [Session.step, hk, hrun, hknown, decide_true, Bool.not_true, Bool.and_false]
  refine ⟨?_, fun h'' reg hl' => ?_, (fun hl => absurd hl (by simp)), fun _ => h.others_eq_nil⟩
  · show 0 < s'.heap.brk
    rw [hbrk]
    exact h.brk_pos
  · have hold : (s.adapter.discoveryRegs.erase h').lookup h'' = some reg := hregs ▸ hl'
    exact h.feature h'' reg (lookup_erase_eq_some.mp hold).2

/-- Only possible once an identifier has been issued twice; the newest subscription stays served. -/
theorem sessionOk_drop_unknown {s : Session} (h : SessionOk s) {k : Nat} {sub : Subscription}
    (hk : s.live[k]? = some sub) (hunknown : ¬ Knows s.adapter sub.reg) :
    SessionOk (s.step (.drop k)) := by
  obtain ⟨s', hrun, hregs, hheap⟩ := run_drop_unknown hunknown s.sdk
  simp only [Session.step, hk, hrun, hunknown, decide_false, Bool.not_false, Bool.and_true]
  refine ⟨?_, fun h'' reg hl' => ?_, fun hl => ?_, h.disturbed⟩
  · show 0 < s'.heap.brk
    rw [hheap]
    exact h.brk_pos
  · exact h.feature h'' reg (hregs ▸ hl')
  · obtain ⟨sub', ptr, hserved⟩ := h.latest hl
    have hne : sub' ≠ sub := by
      rintro rfl
      exact hunknown hserved.known
    refine ⟨sub', ptr, hserved.mem_eraseIdx hk hne, ?_, hserved.registered, hserved.ne_zero, ?_⟩
    · obtain ⟨h'', hhandle, hmem⟩ := hserved.known
      exact ⟨h'', hhandle, hregs.symm ▸ hmem⟩
    · show s'.heap.contexts.lookup ptr = some ⟨sub'.closure⟩
      rw [hheap]
      exact hserved.context

theorem sessionOk_drop {s : Session} (h : SessionOk s) (k : Nat) : SessionOk (s.step (.drop k)) := by
  rcases hk : s.live[k]? with - | sub
  · simp only [Session.step, hk]
    exact h
  · by_cases hknown : Knows s.adapter sub.reg
    · exact sessionOk_drop_known h hk hknown
    · exact sessionOk_drop_unknown h hk hknown

/-- **Every activity keeps the invariant.** -/
theorem sessionOk_step {s : Session} (h : SessionOk s) (a : Activity) : SessionOk (s.step a) := by
  cases a with
  | register f => exact sessionOk_register h f
  | drop k => exact sessionOk_drop h k
  | event ev => exact h

theorem sessionOk_run (acts : List Activity) {s : Session} (h : SessionOk s) :
    SessionOk (s.run acts) := by
  induction acts generalizing s with
  | nil => exact h
  | cons a acts ih => exact ih (sessionOk_step h a)

/-! ## Delivery -/

/-- An event reaches the newest subscription if nothing has been dropped, and nobody otherwise. -/
theorem deliveries_eq {s : Session} (h : SessionOk s) {ev : DiscoveryEvent}
    (hlen : (bytes (eventId ev)).length ≤ 255) :
    (s.latest = true ∧ ∃ sub ∈ s.live, deliveries s.adapter s.sdk ev = [.invoked sub.closure ev]) ∨
      (s.latest = false ∧ deliveries s.adapter s.sdk ev = []) := by
  rcases hl : s.latest with - | -
  · refine Or.inr ⟨rfl, ?_⟩
    rw [deliveries, h.disturbed hl]
    rfl
  · obtain ⟨sub, ptr, hserved⟩ := h.latest hl
    refine Or.inl ⟨rfl, sub, hserved.mem, ?_⟩
    have hinvoked := run_discoveryTrampoline (invalidationApi_reads s.sdk ev) hlen hserved.ne_zero
      hserved.context gVmbHandle
    rw [deliveries, hserved.registered, List.map_singleton]
    rw [hserved.registered] at hinvoked
    exact congrArg (fun r => [r.1]) hinvoked

theorem delivers_iff {s : Session} (h : SessionOk s) {ev : DiscoveryEvent}
    (hlen : (bytes (eventId ev)).length ≤ 255) : s.Delivers ev ↔ s.Undisturbed := by
  unfold Session.Delivers Session.Undisturbed
  rcases deliveries_eq h hlen with ⟨hl, sub, hmem, hdel⟩ | ⟨hl, hdel⟩
  · rw [hdel]
    constructor
    · intro hperm
      have hlength := hperm.length_eq
      rw [List.length_singleton, List.length_map] at hlength
      exact Or.inr ⟨hlength.symm, hl⟩
    · rintro (hnil | ⟨hone, -⟩)
      · simp [hnil] at hmem
      · obtain ⟨sub', hlive⟩ := List.length_eq_one_iff.mp hone
        rw [hlive, List.mem_singleton] at hmem
        rw [hlive, hmem, List.map_singleton]
  · rw [hdel]
    constructor
    · intro hperm
      exact Or.inl (List.map_eq_nil_iff.mp hperm.symm.eq_nil)
    · rintro (hnil | ⟨-, htrue⟩)
      · rw [hnil, List.map_nil]
      · rw [hl] at htrue
        cases htrue

/-- The events of a list of activities have an id the trampoline can read: it fits into its buffer
with the trailing NUL. -/
def Readable (acts : List Activity) : Prop :=
  ∀ ev, Activity.event ev ∈ acts → (bytes (eventId ev)).length ≤ 255

/-- **Delivery to several subscriptions.** In a run every event reaches the closures of exactly the
live subscriptions if and only if at every event either nobody subscribes, or there is one
subscription and nothing has been dropped since it was made. -/
theorem conforms_delivers_iff (acts : List Activity) (hread : Readable acts) :
    Conforms (fun pre a => ∀ ev, a = .event ev → (Session.start.run pre).Delivers ev) acts ↔
      Conforms (fun pre a => ∀ ev, a = .event ev → (Session.start.run pre).Undisturbed) acts := by
  have hev : ∀ pre a post, acts = pre ++ a :: post → ∀ ev, a = .event ev →
      ((Session.start.run pre).Delivers ev ↔ (Session.start.run pre).Undisturbed) := by
    intro pre a post hacts ev ha
    refine delivers_iff (sessionOk_run pre sessionOk_start) (hread ev ?_)
    rw [hacts, ha]
    simp
  constructor
  · intro h pre a post hacts ev ha
    exact (hev pre a post hacts ev ha).mp (h pre a post hacts ev ha)
  · intro h pre a post hacts ev ha
    exact (hev pre a post hacts ev ha).mpr (h pre a post hacts ev ha)

/-- A second registration, and then an event. -/
def secondSubscription : List Activity :=
  [.register ⟨1⟩, .register ⟨2⟩, .event (.detected "DEV_1")]

theorem conforms_delivers_iff_secondSubscription :
    Conforms (fun pre a => ∀ ev, a = .event ev → (Session.start.run pre).Delivers ev)
        secondSubscription ↔
      Conforms (fun pre a => ∀ ev, a = .event ev → (Session.start.run pre).Undisturbed)
        secondSubscription :=
  conforms_delivers_iff secondSubscription (by
    intro ev hev
    simp only [secondSubscription, List.mem_cons, reduceCtorEq, List.not_mem_nil, or_false,
      false_or, Activity.event.injEq] at hev
    rw [hev]
    decide)

/-- The second registration takes the SDK slot over, and the first closure is not invoked. -/
theorem not_conforms_delivers_secondSubscription :
    ¬ Conforms (fun pre a => ∀ ev, a = .event ev → (Session.start.run pre).Delivers ev)
      secondSubscription := by
  intro h
  have hdel := h [.register ⟨1⟩, .register ⟨2⟩] _ [] rfl _ rfl
  revert hdel
  decide +kernel

end Vmb.Ffi

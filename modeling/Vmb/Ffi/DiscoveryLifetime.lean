/-
# Vmb.Ffi.DiscoveryLifetime -- discovery contexts outlive their callbacks

The context of a discovery subscription is a box the adapter has leaked with `Box::into_raw`, and the
SDK calls `discovery_trampoline` with its address on threads of its own. `unregister_discovery` frees
the box when `VmbFeatureInvalidationUnregister` has returned, which waits for the callbacks that are
running. Here any threads call the port, the SDK runs any number of callbacks meanwhile, whose closures
call the port again, and the atomic steps of all of them interleave.

However they do, a callback finds its context, the context lives until the callback has returned, and
no context is freed twice (`contexts_outlive`). What the SDK has to promise is `InvalidationRules`, and that
it refuses no unregister call: the adapter frees the context of a refused one too, and the SDK would still
call back with it (`Vmb.Ffi.FailedTeardown`).
-/
import Vmb.Ffi.Discovery
import Vmb.Ffi.Footprint
import Vmb.Lib.Handler
import Vmb.Lib.Pool
import Vmb.Lib.Tokens

namespace Vmb.Ffi

open Vmb.Lib Vmb.Core Vmb.Sdk

variable {ι τ : Type}

/-! ## Steps and callbacks -/

/-- A step of a port method, or the beginning or the end of a callback. -/
inductive CallbackStep where
  | step (c : AtomicStep)
  /-- The SDK calls the trampoline; the answer is the context behind the pointer. -/
  | enter (userContext : Nat)
  /-- The trampoline has returned. -/
  | leave (userContext : Nat)

@[reducible] def CallbackStep.Resp : CallbackStep → Type
  | .step c => c.Resp
  | .enter _ => Option DiscoveryTrampolineCtx
  | .leave _ => Unit

@[reducible] def Callbacks : Signature := ⟨CallbackStep, CallbackStep.Resp⟩

/-- The adapter, the SDK, and the contexts of the callbacks that are running. -/
structure CallbackState (τ : Type) where
  adapter : FfiState
  sdk : τ
  inFlight : List Nat

/-- The adapter over `api`, with callbacks. -/
def callbackMachine (api : VmbApi τ) : Machine Callbacks (CallbackState τ) := fun s c =>
  match c with
  | .step c =>
    let r := stepMachine api (s.adapter, s.sdk) c
    (r.1, ⟨r.2.1, r.2.2, s.inFlight⟩)
  | .enter ptr => (s.adapter.heap.contexts.lookup ptr, { s with inFlight := ptr :: s.inFlight })
  | .leave ptr => ((), { s with inFlight := s.inFlight.erase ptr })

/-- A step of a port method. -/
def stepCall (c : AtomicStep) : Prog Callbacks c.Resp :=
  Prog.call (S := Callbacks) (.step c) Prog.done

/-- A method of the port. -/
def portSteps (c : PortCall) : Prog Callbacks c.Resp := (steps c).through stepCall

/-- The part of the heap a trampoline reads. -/
def heapOf (ptr : Nat) : Option DiscoveryTrampolineCtx → Heap
  | none => ⟨0, ∅, [], []⟩
  | some ctx => ⟨0, Finmap.singleton ptr ctx, [], []⟩

/-- What the discovery closures do: programs over the port, which may panic. -/
abbrev DiscoveryClosures := DiscoveryCallback → DiscoveryEvent → PortM (Exit Unit)

/-- A callback: the trampoline, and the closure it ends in. -/
def callback (closures : DiscoveryClosures) (handle : VmbHandle) (userContext : Nat) :
    Prog Callbacks Delivery := do
  let found ← Prog.call (S := Callbacks) (.enter userContext) Prog.done
  let delivery ← (discoveryTrampoline (heapOf userContext found) handle userContext).through
    fun c => stepCall (.sdk c)
  match delivery with
  | .invoked f event => do
    let _ ← (closures f event).through portSteps
    Prog.call (S := Callbacks) (.leave userContext) fun _ => pure delivery
  | _ => Prog.call (S := Callbacks) (.leave userContext) fun _ => pure delivery

/-- What a thread does: a client runs a program over the port, the SDK a callback. -/
inductive Operation where
  | client (p : PortM Unit)
  | callback (handle : VmbHandle) (userContext : Nat)

/-- The result of an operation is what the trampoline did. -/
def Operation.perform (closures : DiscoveryClosures) : Operation → Unit →
    Prog Callbacks (Option Delivery × Unit)
  | .client p, _ => do
    p.through portSteps
    pure (none, ())
  | .callback handle userContext, _ => do
    let delivery ← Ffi.callback closures handle userContext
    pure (some delivery, ())

/-! ## What the SDK promises -/

/-- The SDK calls back with a context from the registration of the context until it has unregistered. -/
structure InvalidationRules (api : VmbApi τ) (registered : τ → Nat → Prop) : Prop where
  register : ∀ t handle name trampoline ptr ptr',
    registered (api t (.vmbFeatureInvalidationRegister handle name trampoline ptr)).2 ptr' →
      registered t ptr' ∨
        (api t (.vmbFeatureInvalidationRegister handle name trampoline ptr)).1 = (0 : Int32) ∧ ptr' = ptr
  unregister : ∀ t ptr, (api t (.vmbFeatureInvalidationUnregister gVmbHandle discoveryFeature
      .discoveryTrampoline)).1 = (0 : Int32) →
    ¬ registered (api t (.vmbFeatureInvalidationUnregister gVmbHandle discoveryFeature
      .discoveryTrampoline)).2 ptr
  other : ∀ t c ptr, (∀ handle name trampoline p,
    c ≠ .vmbFeatureInvalidationRegister handle name trampoline p) →
      registered (api t c).2 ptr → registered t ptr

/-- The next call of the thread unregisters. -/
def Unregisters : CallbackStep → Prop
  | .step (.sdk (.vmbFeatureInvalidationUnregister _ _ _)) => True
  | _ => False

/-- A call that unregisters is not refused. -/
def Accepted (api : VmbApi τ) (t : τ) : CallbackStep → Prop
  | .step (.sdk (.vmbFeatureInvalidationUnregister handle name trampoline)) =>
    (api t (.vmbFeatureInvalidationUnregister handle name trampoline)).1 = (0 : Int32)
  | _ => True

/-- The SDK calls back with registered contexts only, and an unregister call waits until no callback is
running and is not refused. -/
def Scheduled [DecidableEq ι] (api : VmbApi τ) (registered : τ → Nat → Prop)
    (P : Pool Callbacks (CallbackState τ) ι Unit (Option Delivery)) : Move ι Operation → Prop
  | .invoke _ _ => True
  | .step t => (∀ ptr, P.Calls t (.enter ptr) → registered P.shared.sdk ptr) ∧
      ∀ c, P.Calls t c → (Unregisters c → P.shared.inFlight = []) ∧ Accepted api P.shared.sdk c

/-! ## The context in the hand of a thread -/

/-- How far a thread is with the context it holds. -/
inductive BoxPhase where
  /-- Allocated, and not given to the SDK. -/
  | fresh
  /-- The SDK has not taken it. -/
  | refused
  /-- Registered, and not in the table yet. -/
  | accepted
  /-- Out of the table, and still registered. -/
  | removed
  /-- Unregistered. -/
  | released
  deriving DecidableEq

/-- A thread holds one context at most, and frees it when the SDK does not have it. -/
def boxInHand : Contract Steps (Option (Nat × BoxPhase)) where
  pre v c :=
    match c with
    | .access (.intoRaw _) => v = none
    | .sdk (.vmbFeatureInvalidationRegister _ _ _ ptr) => v = some (ptr, .fresh)
    | .access (.insertReg _ reg) => v = some (reg.ctxPtr, .accepted) ∧ reg.feature = discoveryFeature
    | .access (.removeReg _) => v = none
    | .sdk (.vmbFeatureInvalidationUnregister handle name trampoline) =>
      (handle, name, trampoline) = discoveryKey ∧ ∃ ptr, v = some (ptr, .removed)
    | .access (.fromRaw ptr) => v = some (ptr, .refused) ∨ v = some (ptr, .released)
    | _ => True
  next v c r :=
    match c, r with
    | .access (.intoRaw _), ptr => some (ptr, .fresh)
    | .sdk (.vmbFeatureInvalidationRegister _ _ _ ptr), rc =>
      some (ptr, if rc = (0 : Int32) then .accepted else .refused)
    | .access (.insertReg _ _), _ => none
    | .access (.removeReg _), found => found.map fun reg => (reg.ctxPtr, .removed)
    | .sdk (.vmbFeatureInvalidationUnregister _ _ _), _ => v.map fun x => (x.1, .released)
    | .access (.fromRaw _), _ => none
    | _, _ => v

/-- A registration in the table is one of the adapter's. -/
def OwnFeature : (c : AtomicStep) → c.Resp → Prop
  | .access (.removeReg _), found => ∀ reg, found = some reg → reg.feature = discoveryFeature
  | _, _ => True

theorem registerDiscovery_boxInHand (cb : DiscoveryCallbackId) :
    (Atomic.registerDiscovery cb).Ensures boxInHand OwnFeature (fun _ v => v = none) none := by
  refine ⟨trivial, fun found _ => ?_⟩
  cases found with
  | none => rfl
  | some f =>
      dsimp only [Prog.bind]
      rw [FfiState.newDiscoveryFeature]
      refine ⟨rfl, fun ptr _ => ⟨rfl, fun rc _ => ?_⟩⟩
      have hnext : boxInHand.next (some (ptr, .fresh)) (.sdk (.vmbFeatureInvalidationRegister
          gVmbHandle discoveryFeature .discoveryTrampoline ptr)) rc =
          some (ptr, if rc = (0 : Int32) then .accepted else .refused) := rfl
      dsimp only [Prog.bind]
      cases hcheck : check rc with
      | error e =>
          rw [if_neg (FfiState.check_error hcheck).1] at hnext
          exact ⟨Or.inl hnext, fun _ _ => rfl⟩
      | ok _ =>
          rw [if_pos (FfiState.check_ok hcheck)] at hnext
          exact ⟨trivial, fun id _ => ⟨⟨hnext, rfl⟩, fun _ _ => rfl⟩⟩

theorem unregisterDiscovery_boxInHand (r : DiscoveryRegistrationHandle) :
    (Atomic.unregisterDiscovery r).Ensures boxInHand OwnFeature (fun _ v => v = none) none := by
  refine ⟨rfl, fun found hown => ?_⟩
  cases found with
  | none => rfl
  | some reg =>
      refine ⟨⟨?_, reg.ctxPtr, rfl⟩, fun rc _ => ⟨Or.inr rfl, fun _ _ => rfl⟩⟩
      rw [hown reg rfl]
      rfl

/-- **A method hands on every context it gets**, and frees none the SDK may still use. -/
theorem steps_boxInHand (c : PortCall) :
    (steps c).Ensures boxInHand OwnFeature (fun _ v => v = none) none := by
  cases c with
  | registerDiscovery cb => exact registerDiscovery_boxInHand cb
  | unregisterDiscovery r => exact unregisterDiscovery_boxInHand r
  | _ =>
      refine (steps_quiet _ fun step hstep => ?_).ensures
      cases hstep <;> exact ⟨trivial, fun _ => rfl⟩

/-! ## Callbacks keep it -/

/-- A contract on steps, for threads that also run callbacks. -/
def onSteps {ν : Type} (C : Contract Steps ν) : Contract Callbacks ν where
  pre v c :=
    match c with
    | .step c => C.pre v c
    | _ => True
  next v c r :=
    match c, r with
    | .step c, r => C.next v c r
    | _, _ => v

/-- A callback finds its context, and a registration in the table is one of the adapter's. -/
def Found : (c : CallbackStep) → c.Resp → Prop
  | .step c, r => OwnFeature c r
  | .enter _, found => found ≠ none
  | .leave _, _ => True

section Ensures

variable {α ν : Type} {C : Contract Steps ν} {Q : α → ν → Prop} {v : ν}

theorem through_stepCall {p : Prog Steps α} (h : p.Ensures C OwnFeature Q v) :
    (p.through stepCall).Ensures (onSteps C) Found Q v := by
  induction p generalizing v with
  | done a => exact h
  | call c k ih => exact ⟨h.1, fun r hr => ih r (h.2 r hr)⟩

end Ensures

theorem program_boxInHand {α : Type} (p : PortM α) :
    (p.through portSteps).Ensures (onSteps boxInHand) Found (fun _ v => v = none) none := by
  induction p with
  | done a => rfl
  | call c k ih =>
      refine Prog.ensures_bind.mpr ((through_stepCall (steps_boxInHand c)).mono ?_)
      rintro r v rfl
      exact ih r

/-- The trampoline leaves the contexts alone. -/
theorem trampoline_boxInHand {p : SdkM Delivery} (hreads : p.CallsOnly ReadsFeature)
    (hlive : p.Meets (.free VmbC) (fun d _ => d ≠ .dangling) ()) (v : Option (Nat × BoxPhase)) :
    (p.through fun c => stepCall (.sdk c)).Ensures (onSteps boxInHand) Found
      (fun d v' => d ≠ .dangling ∧ v' = v) v := by
  induction p with
  | done d => exact ⟨hlive, rfl⟩
  | call c k ih =>
      cases c
      case vmbFeatureStringGet => exact ⟨trivial, fun r _ => ih r (hreads.2 r) (hlive.2 r)⟩
      case vmbFeatureEnumGet => exact ⟨trivial, fun r _ => ih r (hreads.2 r) (hlive.2 r)⟩
      all_goals exact hreads.1.elim

theorem callback_boxInHand (closures : DiscoveryClosures) (handle : VmbHandle) (userContext : Nat) :
    (callback closures handle userContext).Ensures (onSteps boxInHand) Found
      (fun d v => v = none ∧ d ≠ .dangling) none := by
  refine Prog.ensures_bind.mpr ⟨trivial, fun found hfound => ?_⟩
  rcases found with - | ctx
  · exact absurd rfl hfound
  have hctx : (heapOf userContext (some ctx)).contexts.lookup userContext = some ctx :=
    Finmap.lookup_singleton_eq
  refine Prog.ensures_bind.mpr ((trampoline_boxInHand (discoveryTrampoline_reads _ handle userContext)
    (discoveryTrampoline_of_live hctx handle) none).mono ?_)
  rintro d v ⟨hd, rfl⟩
  cases d with
  | invoked f event =>
      refine Prog.ensures_bind.mpr ((program_boxInHand (closures f event)).mono ?_)
      rintro r v rfl
      exact ⟨trivial, fun _ _ => ⟨rfl, hd⟩⟩
  | ignored => exact ⟨trivial, fun _ _ => ⟨rfl, hd⟩⟩
  | dangling => exact absurd rfl hd
  | panicked m => exact ⟨trivial, fun _ _ => ⟨rfl, hd⟩⟩

theorem perform_boxInHand (closures : DiscoveryClosures) (op : Operation) (x : Unit) :
    (op.perform closures x).Ensures (onSteps boxInHand) Found
      (fun r v => v = none ∧ r.1 ≠ some .dangling) none := by
  cases op with
  | client p =>
      refine Prog.ensures_bind.mpr ((program_boxInHand p).mono ?_)
      rintro r v rfl
      exact ⟨rfl, fun hdangling => (by cases hdangling)⟩
  | callback handle userContext =>
      refine Prog.ensures_bind.mpr ((callback_boxInHand closures handle userContext).mono ?_)
      rintro d v ⟨rfl, hd⟩
      exact ⟨rfl, fun hdangling => hd (Option.some.inj hdangling)⟩

/-! ## What every step keeps -/

/-- The SDK may use the context: it may call back with it, or a callback with it is running. -/
def Exposed (registered : τ → Nat → Prop) (s : CallbackState τ) (ptr : Nat) : Prop :=
  registered s.sdk ptr ∨ ptr ∈ s.inFlight

/-- Where the contexts are. -/
def boxPlaces (view : ι → Option (Nat × BoxPhase)) (s : FfiState) :
    Places (ι ⊕ DiscoveryRegistrationHandle) Nat :=
  .split (· ∈ s.heap.contexts) (fun t => (view t).map Prod.fst) fun r =>
    (s.discoveryRegs.lookup r).map DiscoveryRegState.ctxPtr

/-- A context is in one place at most. What the SDK may use is live, and a thread that holds it has not
unregistered it yet. -/
structure BoxInv (registered : τ → Nat → Prop) (view : ι → Option (Nat × BoxPhase))
    (s : CallbackState τ) : Prop where
  placed : (boxPlaces view s.adapter).Placed False
  exposed : ∀ ptr, Exposed registered s ptr → ptr ∈ s.adapter.heap.contexts
  held : ∀ t ptr phase, view t = some (ptr, phase) → Exposed registered s ptr →
    phase = .accepted ∨ phase = .removed
  features : ∀ r reg, s.adapter.discoveryRegs.lookup r = some reg → reg.feature = discoveryFeature
  bounded : ∀ ptr ∈ s.adapter.heap.contexts, ptr < s.adapter.heap.brk
  once : s.adapter.heap.reclaimed.Nodup
  gone : ∀ ptr ∈ s.adapter.heap.reclaimed, ptr < s.adapter.heap.brk ∧ ptr ∉ s.adapter.heap.contexts

variable {registered : τ → Nat → Prop} {view : ι → Option (Nat × BoxPhase)} {s s' : CallbackState τ}

theorem BoxInv.init (s : FfiState) (t : τ) (hregs : s.discoveryRegs = ∅) (hheap : s.heap.contexts = ∅)
    (hreclaimed : s.heap.reclaimed = []) (hnone : ∀ ptr, ¬ registered t ptr) :
    BoxInv registered (fun _ : ι => none) ⟨s, t, []⟩ where
  placed := by
    refine .empty (fun ptr hptr => ?_) fun a => ?_
    · have hptr : ptr ∈ s.heap.contexts := hptr
      rw [hheap] at hptr
      exact Finmap.notMem_empty hptr
    · rcases a with u | r
      · rfl
      · show (s.discoveryRegs.lookup r).map _ = none
        rw [hregs, Finmap.lookup_empty]
        rfl
  exposed ptr h := by
    rcases h with h | h
    · exact absurd h (hnone ptr)
    · exact absurd h List.not_mem_nil
  held t ptr phase h := by cases h
  features r reg h := by
    rw [hregs, Finmap.lookup_empty] at h
    cases h
  bounded ptr h := by
    rw [hheap] at h
    exact absurd h Finmap.notMem_empty
  once := by
    rw [hreclaimed]
    exact List.nodup_nil
  gone ptr h := by
    rw [hreclaimed] at h
    exact absurd h List.not_mem_nil

/-- A step that leaves the contexts and the table alone, and exposes nothing. -/
theorem BoxInv.keep (h : BoxInv registered view s)
    (hcontexts : s'.adapter.heap.contexts = s.adapter.heap.contexts)
    (hreclaimed : s'.adapter.heap.reclaimed = s.adapter.heap.reclaimed)
    (hbrk : s.adapter.heap.brk ≤ s'.adapter.heap.brk)
    (hregs : s'.adapter.discoveryRegs = s.adapter.discoveryRegs)
    (hexposed : ∀ ptr, Exposed registered s' ptr → Exposed registered s ptr) :
    BoxInv registered view s' where
  placed := by
    unfold boxPlaces
    rw [hcontexts, hregs]
    exact h.placed
  exposed ptr hptr := hcontexts ▸ h.exposed ptr (hexposed ptr hptr)
  held t ptr phase hview hptr := h.held t ptr phase hview (hexposed ptr hptr)
  features := hregs ▸ h.features
  bounded ptr hptr := Nat.lt_of_lt_of_le (h.bounded ptr (hcontexts ▸ hptr)) hbrk
  once := hreclaimed ▸ h.once
  gone ptr hptr := by
    obtain ⟨hlt, hnot⟩ := h.gone ptr (hreclaimed ▸ hptr)
    exact ⟨Nat.lt_of_lt_of_le hlt hbrk, hcontexts ▸ hnot⟩

variable [DecidableEq ι] {t : ι} {ptr : Nat} {phase : BoxPhase}

/-- The token of a view. -/
theorem hands_update (view : ι → Option (Nat × BoxPhase)) (t : ι) (v : Option (Nat × BoxPhase)) :
    (fun u => (Function.update view t v u).map Prod.fst) =
      Function.update (fun u => (view u).map Prod.fst) t (v.map Prod.fst) := by
  funext u
  rcases eq_or_ne u t with rfl | hne
  · rw [Function.update_self, Function.update_self]
  · rw [Function.update_of_ne hne, Function.update_of_ne hne]

omit [DecidableEq ι] in
/-- A context in a hand is live, and in no other hand. -/
theorem BoxInv.live (h : BoxInv registered view s) (hview : view t = some (ptr, phase)) :
    ptr ∈ s.adapter.heap.contexts :=
  h.placed.live (Sum.inl t) ptr (congrArg (Option.map Prod.fst) hview)

omit [DecidableEq ι] in
theorem BoxInv.unique (h : BoxInv registered view s) (hview : view t = some (ptr, phase)) {u : ι}
    {phase' : BoxPhase} (hu : view u = some (ptr, phase')) : u = t :=
  Sum.inl.inj (h.placed.unique (Sum.inl u) (Sum.inl t) ptr (congrArg (Option.map Prod.fst) hu)
    (congrArg (Option.map Prod.fst) hview))

/-- The thread goes on with the context in its hand. -/
theorem BoxInv.advance (h : BoxInv registered view s) (hview : view t = some (ptr, phase))
    (s' : CallbackState τ) (hadapter : s'.adapter = s.adapter) {phase' : BoxPhase}
    (hexposed : ∀ p, Exposed registered s' p → Exposed registered s p ∨ p = ptr)
    (hphase : Exposed registered s' ptr → phase' = .accepted ∨ phase' = .removed) :
    BoxInv registered (Function.update view t (some (ptr, phase'))) s' where
  placed := by
    have hsame : Function.update (fun u => (view u).map Prod.fst) t (some ptr) =
        fun u => (view u).map Prod.fst := by
      have hself : (view t).map Prod.fst = some ptr := congrArg (Option.map Prod.fst) hview
      rw [← hself]
      exact Function.update_eq_self t fun u => (view u).map Prod.fst
    unfold boxPlaces
    rw [hands_update, Option.map_some, hsame, hadapter]
    exact h.placed
  exposed p hp := by
    rw [hadapter]
    rcases hexposed p hp with hp | rfl
    · exact h.exposed p hp
    · exact h.live hview
  held u p phase'' hu hp := by
    rcases eq_or_ne u t with rfl | hne
    · rw [Function.update_self] at hu
      cases hu
      exact hphase hp
    · rw [Function.update_of_ne hne] at hu
      rcases hexposed p hp with hp | rfl
      · exact h.held u p phase'' hu hp
      · exact absurd (h.unique hview hu) hne
  features := hadapter ▸ h.features
  bounded := hadapter ▸ h.bounded
  once := hadapter ▸ h.once
  gone := hadapter ▸ h.gone

/-- A new context, at an address that was never used. -/
theorem BoxInv.intoRaw (h : BoxInv registered view s) (hview : view t = none)
    (ctx : DiscoveryTrampolineCtx) :
    BoxInv registered (Function.update view t (some (s.adapter.heap.brk, .fresh)))
      ⟨(s.adapter.intoRaw ctx).2, s.sdk, s.inFlight⟩ := by
  have hnew : s.adapter.heap.brk ∉ s.adapter.heap.contexts := fun hmem =>
    Nat.lt_irrefl _ (h.bounded _ hmem)
  refine ⟨?_, fun p hp => ?_, fun u p phase' hu hp => ?_, h.features, fun p hp => ?_, h.once,
    fun p hp => ?_⟩
  · refine h.placed.step ?_
    unfold boxPlaces
    rw [hands_update]
    exact .received hnew False.elim fun p => Finmap.mem_insert.trans or_comm
  · exact Finmap.mem_insert.mpr (Or.inr (h.exposed p hp))
  · rcases eq_or_ne u t with rfl | hne
    · rw [Function.update_self] at hu
      cases hu
      exact absurd (h.exposed _ hp) hnew
    · rw [Function.update_of_ne hne] at hu
      exact h.held u p phase' hu hp
  · show p < s.adapter.heap.brk + max 1 1
    rcases Finmap.mem_insert.mp hp with rfl | hp
    · omega
    · exact Nat.lt_add_right _ (h.bounded p hp)
  · obtain ⟨hlt, hnot⟩ := h.gone p hp
    refine ⟨Nat.lt_add_right _ hlt, fun hmem => ?_⟩
    rcases Finmap.mem_insert.mp hmem with rfl | hmem
    · exact Nat.lt_irrefl _ hlt
    · exact hnot hmem

/-- The context goes into the table. -/
theorem BoxInv.insertReg (h : BoxInv registered view s) {r : DiscoveryRegistrationHandle}
    {reg : DiscoveryRegState} (hview : view t = some (reg.ctxPtr, .accepted))
    (hfeature : reg.feature = discoveryFeature) :
    BoxInv registered (Function.update view t none)
      ⟨(s.adapter.access (.insertReg r reg)).2, s.sdk, s.inFlight⟩ := by
  refine ⟨?_, h.exposed, fun u p phase' hu hp => ?_, fun r' reg' hr' => ?_, h.bounded, h.once, h.gone⟩
  · have htable : (fun r' => ((s.adapter.discoveryRegs.insert r reg).lookup r').map
        DiscoveryRegState.ctxPtr) = Function.update
          (fun r' => (s.adapter.discoveryRegs.lookup r').map DiscoveryRegState.ctxPtr) r
          (some reg.ctxPtr) := by
      funext r'
      rcases eq_or_ne r' r with rfl | hne
      · rw [Function.update_self, Finmap.lookup_insert]
        rfl
      · rw [Function.update_of_ne hne, Finmap.lookup_insert_of_ne _ hne]
    refine h.placed.step ?_
    unfold boxPlaces
    rw [hands_update]
    show Places.Step False _ (.split _ _ fun r' =>
      ((s.adapter.discoveryRegs.insert r reg).lookup r').map DiscoveryRegState.ctxPtr)
    rw [htable]
    exact .stored (congrArg (Option.map Prod.fst) hview) False.elim fun _ => Iff.rfl
  · rcases eq_or_ne u t with rfl | hne
    · rw [Function.update_self] at hu
      cases hu
    · rw [Function.update_of_ne hne] at hu
      exact h.held u p phase' hu hp
  · rcases lookup_insert_eq_some.mp hr' with ⟨-, rfl⟩ | ⟨-, hr'⟩
    · exact hfeature
    · exact h.features r' reg' hr'

/-- The context comes out of the table, still registered. -/
theorem BoxInv.removeReg (h : BoxInv registered view s) {r : DiscoveryRegistrationHandle}
    {reg : DiscoveryRegState} (hview : view t = none)
    (hlookup : s.adapter.discoveryRegs.lookup r = some reg) :
    BoxInv registered (Function.update view t (some (reg.ctxPtr, .removed)))
      ⟨(s.adapter.access (.removeReg r)).2, s.sdk, s.inFlight⟩ := by
  refine ⟨?_, h.exposed, fun u p phase' hu hp => ?_, fun r' reg' hr' => ?_, h.bounded, h.once, h.gone⟩
  · have htable : (fun r' => ((s.adapter.discoveryRegs.erase r).lookup r').map
        DiscoveryRegState.ctxPtr) = Function.update
          (fun r' => (s.adapter.discoveryRegs.lookup r').map DiscoveryRegState.ctxPtr) r none := by
      funext r'
      rcases eq_or_ne r' r with rfl | hne
      · rw [Function.update_self, Finmap.lookup_erase]
        rfl
      · rw [Function.update_of_ne hne, Finmap.lookup_erase_ne hne]
    refine h.placed.step ?_
    unfold boxPlaces
    rw [hands_update]
    show Places.Step False _ (.split _ _ fun r' =>
      ((s.adapter.discoveryRegs.erase r).lookup r').map DiscoveryRegState.ctxPtr)
    rw [htable]
    exact .taken (congrArg (Option.map DiscoveryRegState.ctxPtr) hlookup) False.elim fun _ => Iff.rfl
  · rcases eq_or_ne u t with rfl | hne
    · rw [Function.update_self] at hu
      cases hu
      exact Or.inr rfl
    · rw [Function.update_of_ne hne] at hu
      exact h.held u p phase' hu hp
  · exact h.features r' reg' (lookup_erase_eq_some.mp hr').2

/-- **A context is freed when the SDK has no use for it**, and was not freed before. -/
theorem BoxInv.fromRaw (h : BoxInv registered view s) (hview : view t = some (ptr, phase))
    (hphase : phase ≠ .accepted ∧ phase ≠ .removed) :
    BoxInv registered (Function.update view t none)
      ⟨(s.adapter.access (.fromRaw ptr)).2, s.sdk, s.inFlight⟩ := by
  have hunexposed : ¬ Exposed registered s ptr := fun hexposed =>
    (h.held t ptr phase hview hexposed).elim hphase.1 hphase.2
  refine ⟨?_, fun p hp => ?_, fun u p phase' hu hp => ?_, h.features, fun p hp => ?_, ?_, fun p hp => ?_⟩
  · refine h.placed.step ?_
    unfold boxPlaces
    rw [hands_update]
    exact .returned (congrArg (Option.map Prod.fst) hview) fun p => Finmap.mem_erase.trans and_comm
  · refine Finmap.mem_erase.mpr ⟨?_, h.exposed p hp⟩
    rintro rfl
    exact hunexposed hp
  · rcases eq_or_ne u t with rfl | hne
    · rw [Function.update_self] at hu
      cases hu
    · rw [Function.update_of_ne hne] at hu
      exact h.held u p phase' hu hp
  · exact h.bounded p (Finmap.mem_erase.mp hp).2
  · show (s.adapter.heap.reclaimed ++ [ptr]).Nodup
    refine List.nodup_append.mpr ⟨h.once, List.nodup_singleton _, fun p hp q hq => ?_⟩
    rw [List.mem_singleton.mp hq]
    rintro rfl
    exact (h.gone p hp).2 (h.live hview)
  · rcases List.mem_append.mp hp with hp | hp
    · obtain ⟨hlt, hnot⟩ := h.gone p hp
      exact ⟨hlt, fun hmem => hnot (Finmap.mem_erase.mp hmem).2⟩
    · obtain rfl := List.mem_singleton.mp hp
      exact ⟨h.bounded p (h.live hview), fun hmem => (Finmap.mem_erase.mp hmem).1 rfl⟩

variable {api : VmbApi τ}

/-- An access. -/
theorem BoxInv.access (h : BoxInv registered view s) {c : Access}
    (hpre : boxInHand.pre (view t) (.access c)) :
    BoxInv registered (Function.update view t
      (boxInHand.next (view t) (.access c) (s.adapter.access c).1))
      ⟨(s.adapter.access c).2, s.sdk, s.inFlight⟩ := by
  -- an access that is not about contexts
  have hkeep : boxInHand.next (view t) (.access c) (s.adapter.access c).1 = view t →
      (s.adapter.access c).2.heap.contexts = s.adapter.heap.contexts →
      (s.adapter.access c).2.heap.reclaimed = s.adapter.heap.reclaimed →
      s.adapter.heap.brk ≤ (s.adapter.access c).2.heap.brk →
      (s.adapter.access c).2.discoveryRegs = s.adapter.discoveryRegs →
      BoxInv registered (Function.update view t
        (boxInHand.next (view t) (.access c) (s.adapter.access c).1))
        ⟨(s.adapter.access c).2, s.sdk, s.inFlight⟩ := by
    intro hnext hcontexts hreclaimed hbrk hregs
    rw [hnext, Function.update_eq_self]
    exact h.keep hcontexts hreclaimed hbrk hregs fun _ hp => hp
  cases c
  case intoRaw ctx => exact h.intoRaw hpre ctx
  case insertReg r reg => exact h.insertReg hpre.1 hpre.2
  case removeReg r =>
    have hnone : view t = none := hpre
    rcases hlookup : s.adapter.discoveryRegs.lookup r with - | reg
    · refine hkeep ?_ rfl rfl (Nat.le_refl _) (erase_of_lookup_none hlookup)
      show (s.adapter.discoveryRegs.lookup r).map _ = view t
      rw [hlookup, hnone]
      rfl
    · have hnext : boxInHand.next (view t) (.access (.removeReg r))
          (s.adapter.access (.removeReg r)).1 = some (reg.ctxPtr, .removed) := by
        show (s.adapter.discoveryRegs.lookup r).map _ = _
        rw [hlookup]
        rfl
      rw [hnext]
      exact h.removeReg hnone hlookup
  case fromRaw ptr =>
    rcases hpre with hview | hview
    · exact h.fromRaw hview ⟨BoxPhase.noConfusion, BoxPhase.noConfusion⟩
    · exact h.fromRaw hview ⟨BoxPhase.noConfusion, BoxPhase.noConfusion⟩
  case newContext size =>
    refine hkeep rfl rfl rfl ?_ rfl
    simp only [FfiState.access, TrampolineContext.new, FfiState.alloc]
    omega
  case patchFrame slot callback =>
    have hsame : (s.adapter.access (.patchFrame slot callback)).2.heap = s.adapter.heap ∧
        (s.adapter.access (.patchFrame slot callback)).2.discoveryRegs = s.adapter.discoveryRegs := by
      dsimp only [FfiState.access]
      split <;> exact ⟨rfl, rfl⟩
    exact hkeep rfl (congrArg Heap.contexts hsame.1) (congrArg Heap.reclaimed hsame.1)
      (Nat.le_of_eq (congrArg Heap.brk hsame.1).symm) hsame.2
  all_goals exact hkeep rfl rfl rfl (Nat.le_refl _) rfl

/-- An SDK call. -/
theorem BoxInv.sdk (h : BoxInv registered view s) (hrules : InvalidationRules api registered)
    {c : SdkCall} (hpre : boxInHand.pre (view t) (.sdk c))
    (hwait : Unregisters (.step (.sdk c)) → s.inFlight = [])
    (haccepted : Accepted api s.sdk (.step (.sdk c))) :
    BoxInv registered (Function.update view t (boxInHand.next (view t) (.sdk c) (api s.sdk c).1))
      ⟨s.adapter, (api s.sdk c).2, s.inFlight⟩ := by
  have hkeep : boxInHand.next (view t) (.sdk c) (api s.sdk c).1 = view t →
      (∀ handle name trampoline p,
        c ≠ .vmbFeatureInvalidationRegister handle name trampoline p) →
      BoxInv registered (Function.update view t (boxInHand.next (view t) (.sdk c) (api s.sdk c).1))
        ⟨s.adapter, (api s.sdk c).2, s.inFlight⟩ := by
    intro hnext hother
    rw [hnext, Function.update_eq_self]
    refine h.keep rfl rfl (Nat.le_refl _) rfl fun p hp => hp.imp_left fun hp => ?_
    exact hrules.other s.sdk c p hother hp
  cases c
  case vmbFeatureInvalidationRegister handle name trampoline ptr =>
    have hview : view t = some (ptr, .fresh) := hpre
    have hregister := hrules.register s.sdk handle name trampoline ptr
    have hnext : ∀ rc : Int32, boxInHand.next (view t)
        (.sdk (.vmbFeatureInvalidationRegister handle name trampoline ptr)) rc =
        some (ptr, if rc = 0 then .accepted else .refused) := fun _ => rfl
    rw [hnext]
    refine h.advance hview ⟨s.adapter, (api s.sdk _).2, s.inFlight⟩ rfl (fun p hp => ?_) fun hp => ?_
    · rcases hp with hp | hp
      · exact (hregister p hp).imp Or.inl And.right
      · exact Or.inl (Or.inr hp)
    · -- a context the SDK has refused is not exposed
      by_cases hrc : (api s.sdk (.vmbFeatureInvalidationRegister handle name trampoline ptr)).1 =
        (0 : Int32)
      · exact Or.inl (if_pos hrc)
      · have hexposed : Exposed registered s ptr := by
          rcases hp with hp | hp
          · exact Or.inl ((hregister ptr hp).resolve_right fun hnew => hrc hnew.1)
          · exact Or.inr hp
        exact (h.held t ptr .fresh hview hexposed).elim BoxPhase.noConfusion BoxPhase.noConfusion
  case vmbFeatureInvalidationUnregister handle name trampoline =>
    obtain ⟨hkey, ptr, hview⟩ := hpre
    obtain ⟨rfl, rfl, rfl⟩ : handle = gVmbHandle ∧ name = discoveryFeature ∧
        trampoline = .discoveryTrampoline := by simpa [discoveryKey] using hkey
    -- nothing is registered and no callback is running any more
    have hnothing : ∀ p, ¬ Exposed registered ⟨s.adapter, (api s.sdk
        (.vmbFeatureInvalidationUnregister gVmbHandle discoveryFeature .discoveryTrampoline)).2,
        s.inFlight⟩ p := by
      rintro p (hp | hp)
      · exact hrules.unregister s.sdk p haccepted hp
      · have hp : p ∈ s.inFlight := hp
        rw [hwait trivial] at hp
        exact List.not_mem_nil hp
    have hnext : ∀ rc : Int32, boxInHand.next (view t) (.sdk (.vmbFeatureInvalidationUnregister
        gVmbHandle discoveryFeature .discoveryTrampoline)) rc = some (ptr, .released) :=
      fun _ => congrArg (Option.map fun x : Nat × BoxPhase => (x.1, BoxPhase.released)) hview
    rw [hnext]
    exact h.advance hview ⟨s.adapter, (api s.sdk _).2, s.inFlight⟩ rfl
      (fun p hp => absurd hp (hnothing p)) fun hp => absurd hp (hnothing ptr)
  all_goals exact hkeep rfl fun _ _ _ _ => SdkCall.noConfusion

/-- **Every step keeps the contexts alive that the SDK may use.** -/
theorem BoxInv.step (h : BoxInv registered view s) (hrules : InvalidationRules api registered)
    {c : CallbackStep} (hpre : (onSteps boxInHand).pre (view t) c)
    (henter : ∀ ptr, c = .enter ptr → registered s.sdk ptr)
    (hwait : Unregisters c → s.inFlight = []) (haccepted : Accepted api s.sdk c) :
    BoxInv registered (Function.update view t
      ((onSteps boxInHand).next (view t) c (callbackMachine api s c).1)) (callbackMachine api s c).2 := by
  rcases c with (c | c) | ptr | ptr
  · exact h.sdk hrules hpre hwait haccepted
  · exact h.access hpre
  · have hnext : (onSteps boxInHand).next (view t) (.enter ptr) (callbackMachine api s (.enter ptr)).1 =
        view t := rfl
    rw [hnext, Function.update_eq_self]
    refine h.keep rfl rfl (Nat.le_refl _) rfl fun p hp => ?_
    rcases hp with hp | hp
    · exact Or.inl hp
    · rcases List.mem_cons.mp hp with rfl | hp
      · exact Or.inl (henter p rfl)
      · exact Or.inr hp
  · have hnext : (onSteps boxInHand).next (view t) (.leave ptr) (callbackMachine api s (.leave ptr)).1 =
        view t := rfl
    rw [hnext, Function.update_eq_self]
    exact h.keep rfl rfl (Nat.le_refl _) rfl fun p hp => hp.imp_right List.mem_of_mem_erase

/-! ## Every schedule -/

/-- Every thread keeps its contract, and what the SDK may use is alive. -/
structure BoxKept (registered : τ → Nat → Prop)
    (P : Pool Callbacks (CallbackState τ) ι Unit (Option Delivery)) : Prop where
  sound : P.Sound (onSteps boxInHand) none Found (fun _ v => v = none) fun d => d ≠ some .dangling
  inv : BoxInv registered (Pool.view (onSteps boxInHand) none P.log) P.shared

variable {P : Pool Callbacks (CallbackState τ) ι Unit (Option Delivery)}

theorem BoxKept.move (h : BoxKept registered P) (hrules : InvalidationRules api registered)
    (closures : DiscoveryClosures) {mv : Move ι Operation} (hmv : Scheduled api registered P mv) :
    BoxKept registered (P.move (callbackMachine api) (Operation.perform closures) mv) := by
  refine ⟨h.sound.move mv (fun t op x v _ hv => ?_) fun t c hstep hcalls => ?_, ?_⟩
  · subst hv
    exact perform_boxInHand closures op x
  · subst hstep
    rcases c with (c | c) | ptr | ptr
    · trivial
    · cases c
      case removeReg r => exact fun reg hreg => h.inv.features r reg hreg
      all_goals trivial
    · have hlive := h.inv.exposed ptr (Or.inl (hmv.1 ptr hcalls))
      exact fun hnone => Finmap.lookup_eq_none.mp hnone hlive
    · trivial
  · rcases P.move_cases (callbackMachine api) (Operation.perform closures) mv with
      ⟨hshared, hlog⟩ | ⟨t, c, rfl, hcalls, hshared, hlog⟩
    · rw [hshared, hlog]
      exact h.inv
    · rw [hshared, hlog, Pool.view_append]
      refine h.inv.step hrules (h.sound.pre hcalls) (fun ptr hc => ?_) (hmv.2 c hcalls).1 (hmv.2 c hcalls).2
      subst hc
      exact hmv.1 ptr hcalls

/-- **Discovery contexts outlive their callbacks.** In every schedule of clients and callbacks in which no
unregister call is refused, no callback finds its context gone, the context of a callback that is running is
alive, a context is freed once, and when a thread is about to free one the SDK has no use for it any
more. -/
theorem contexts_outlive (hrules : InvalidationRules api registered) (closures : DiscoveryClosures)
    (started : Bool) {t : τ} (hnone : ∀ ptr, ¬ registered t ptr) (moves : List (Move ι Operation))
    {P : Pool Callbacks (CallbackState τ) ι Unit (Option Delivery)}
    (hP : P = (Pool.init ⟨{ FfiState.new with started := started }, t, []⟩ ()).run
      (callbackMachine api) (Operation.perform closures) moves)
    (hscheduled : (Pool.init ⟨{ FfiState.new with started := started }, t, []⟩ ()).Along
      (callbackMachine api) (Operation.perform closures) (Scheduled api registered) moves) :
    (∀ u, ∀ d ∈ (P.threads u).results, d ≠ some .dangling) ∧
      (∀ ptr ∈ P.shared.inFlight, ptr ∈ P.shared.adapter.heap.contexts) ∧
      P.shared.adapter.heap.reclaimed.Nodup ∧
      ∀ u ptr, P.Calls u (.step (.access (.fromRaw ptr))) →
        ptr ∈ P.shared.adapter.heap.contexts ∧ ¬ Exposed registered P.shared ptr := by
  have hrun : BoxKept registered P := by
    rw [hP]
    refine Pool.run_invariant (BoxKept registered) (Scheduled api registered)
      (fun _ _ h hmv => h.move hrules closures hmv) _ moves ⟨Pool.sound_init rfl, ?_⟩ hscheduled
    exact BoxInv.init _ t rfl rfl rfl hnone
  refine ⟨hrun.sound.results, fun ptr hptr => hrun.inv.exposed ptr (Or.inr hptr), hrun.inv.once,
    fun u ptr hcalls => ?_⟩
  have hpre : _ ∨ _ := hrun.sound.pre hcalls
  rcases hpre with hview | hview
  · refine ⟨hrun.inv.live hview, fun hexposed => ?_⟩
    exact (hrun.inv.held u ptr .refused hview hexposed).elim BoxPhase.noConfusion BoxPhase.noConfusion
  · refine ⟨hrun.inv.live hview, fun hexposed => ?_⟩
    exact (hrun.inv.held u ptr .released hview hexposed).elim BoxPhase.noConfusion BoxPhase.noConfusion

/-! ## An SDK with one context per key -/

/-- The SDK of `Vmb.Ffi.Discovery` calls back with the contexts under the key of the adapter. -/
def InvalidationSdk.Calls (t : InvalidationSdk) (ptr : Nat) : Prop := (discoveryKey, ptr) ∈ t.registered

instance (t : InvalidationSdk) (ptr : Nat) : Decidable (t.Calls ptr) :=
  inferInstanceAs (Decidable (_ ∈ t.registered))

theorem invalidationApi_rules : InvalidationRules invalidationApi InvalidationSdk.Calls where
  register t handle name trampoline ptr ptr' h := by
    have h : (discoveryKey, ptr') ∈ t.others (handle, name, trampoline) ++
      [((handle, name, trampoline), ptr)] := h
    rcases List.mem_append.mp h with h | h
    · exact Or.inl (List.mem_filter.mp h).1
    · exact Or.inr ⟨rfl, congrArg Prod.snd (List.mem_singleton.mp h)⟩
  unregister t ptr _ h := by
    have h : (discoveryKey, ptr) ∈ t.others discoveryKey := h
    have hne := (List.mem_filter.mp h).2
    simp at hne
  other t c ptr hc h := by
    cases c
    case vmbFeatureInvalidationRegister handle name trampoline p => exact absurd rfl (hc _ _ _ p)
    case vmbFeatureInvalidationUnregister handle name trampoline =>
      have h : (discoveryKey, ptr) ∈ t.others (handle, name, trampoline) := h
      exact (List.mem_filter.mp h).1
    case vmbFeatureStringGet => rcases t with ⟨entries, - | ev⟩ <;> exact h
    case vmbFeatureEnumGet => rcases t with ⟨entries, - | ev⟩ <;> exact h
    all_goals exact h

theorem accepted_invalidationApi (t : InvalidationSdk) (c : CallbackStep) :
    Accepted invalidationApi t c := by
  rcases c with (c | c) | ptr | ptr
  · cases c
    case vmbFeatureInvalidationUnregister => exact rfl
    all_goals trivial
  all_goals trivial

/-- The check that `Scheduled` is for the next call of a thread. -/
def withinPromise (s : CallbackState InvalidationSdk) : CallbackStep → Bool
  | .enter ptr => decide (s.sdk.Calls ptr)
  | .step (.sdk (.vmbFeatureInvalidationUnregister _ _ _)) => s.inFlight.isEmpty
  | _ => true

theorem withinPromise_iff (s : CallbackState InvalidationSdk) (c : CallbackStep) :
    withinPromise s c = true ↔
      (∀ ptr, c = .enter ptr → s.sdk.Calls ptr) ∧ (Unregisters c → s.inFlight = []) := by
  rcases c with (c | c) | ptr | ptr
  · cases c <;> simp [withinPromise, Unregisters]
  · simp [withinPromise, Unregisters]
  · simp [withinPromise, Unregisters]
  · simp [withinPromise, Unregisters]

instance (P : Pool Callbacks (CallbackState InvalidationSdk) ι Unit (Option Delivery)) :
    ∀ mv, Decidable (Scheduled invalidationApi InvalidationSdk.Calls P mv)
  | .invoke _ _ => isTrue trivial
  | .step t =>
    decidable_of_iff (∀ c ∈ P.nextCall t, withinPromise P.shared c = true) (by
      constructor
      · intro h
        refine ⟨fun ptr hptr => ?_, fun c hc => ?_⟩
        · exact ((withinPromise_iff _ _).mp (h _ (Pool.mem_nextCall_iff.mpr hptr))).1 ptr rfl
        · exact ⟨((withinPromise_iff _ _).mp (h c (Pool.mem_nextCall_iff.mpr hc))).2,
            accepted_invalidationApi _ c⟩
      · intro h c hc
        have hcalls := Pool.mem_nextCall_iff.mp hc
        refine (withinPromise_iff _ _).mpr ⟨fun ptr hptr => ?_, (h.2 c hcalls).1⟩
        subst hptr
        exact h.1 ptr hcalls)

/-- A client subscribes; the SDK begins a callback; the client drops the subscription, and has to wait
for the callback before it unregisters. -/
def droppedMeanwhile : List (Move Bool Operation) :=
  let subscribe : PortM Unit := do
    let id ← port (.installDiscoveryCallback ⟨7⟩)
    let _ ← port (.registerDiscovery id)
  let drop : PortM Unit := port (.unregisterDiscovery ⟨2⟩)
  .invoke false (.client subscribe) :: List.replicate 8 (.step false) ++
    [.invoke true (.callback gVmbHandle 1), .step true, .invoke false (.client drop), .step false] ++
    List.replicate 3 (.step true) ++ List.replicate 3 (.step false)

/-- The state all these threads start in. -/
def unsubscribed : CallbackState InvalidationSdk :=
  ⟨{ FfiState.new with started := false }, ⟨[], none⟩, []⟩

/-- The callback has found its context, and the context has been freed once. -/
theorem contexts_outlive_droppedMeanwhile :
    let P : Pool Callbacks _ Bool Unit (Option Delivery) := (Pool.init unsubscribed ()).run
      (callbackMachine invalidationApi) (Operation.perform fun _ _ => pure (.returned ())) droppedMeanwhile
    (P.threads true).results = [some .ignored] ∧ P.shared.adapter.heap.reclaimed = [1] ∧
      ∀ u, ∀ d ∈ (P.threads u).results, d ≠ some .dangling :=
  ⟨by decide +kernel, by decide +kernel,
    (contexts_outlive invalidationApi_rules (fun _ _ => pure (.returned ())) false
      (fun _ => List.not_mem_nil) droppedMeanwhile rfl (by decide +kernel)).1⟩

end Vmb.Ffi

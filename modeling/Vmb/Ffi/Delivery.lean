/-
# Vmb.Ffi.Delivery -- which closure gets a completed frame

The trampoline finds the closure of a frame through the context behind it, and the context got its
closure when the frame was queued. So what a completion invokes is decided by every `start_capture`
before it. `delivering` runs client programs over the adapter while the SDK completes frames between
the port calls, any frames it has accepted, in any order; `owner` is a ghost that remembers for
every context the closure of the `start_capture` that announced it. `deliveries_right` says that a
completed frame reaches exactly that closure, once, with what the SDK wrote.
-/
import Vmb.Core.Starting
import Vmb.Ffi.CaptureRing

namespace Vmb.Ffi

open Vmb.Lib Vmb.Core Vmb.Sdk

/-! ## Runs with completions -/

/-- The SDK accepts the frame `ptr` into its queue. -/
def accepts (ptr : Nat) : Event VmbC → Bool
  | ⟨.vmbCaptureFrameQueue _ ptr' _, rc⟩ => ptr' = ptr ∧ rc = 0
  | _ => false

/-- The SDK has the frame `ptr` to complete. It may complete a frame it has accepted at any time, so
nothing that comes later takes the frame away from it. -/
def Queued (log : List (Event VmbC)) (ptr : Nat) : Prop := ∃ e ∈ log, accepts ptr e = true

instance (log : List (Event VmbC)) (ptr : Nat) : Decidable (Queued log ptr) :=
  inferInstanceAs (Decidable (∃ e ∈ log, _))

/-- A completion that reached the trampoline: the descriptor as the SDK left it, the closure of the
`start_capture` that announced the frame, and what the trampoline invoked. -/
structure Delivered where
  frame : VmbFrame
  owner : Option FrameCallback
  invoked : List (FrameCallback × Frame)

/-- A run: the adapter, the SDK with its log, the ghost, the number of port calls so far and the
completions so far. -/
structure Running (τ : Type) where
  adapter : FfiState
  sdk : τ × List (Event VmbC)
  owner : Nat → Option FrameCallback
  turn : Nat
  delivered : List Delivered

/-- Before the first call. -/
def Running.start {τ : Type} (t : τ) : Running τ := ⟨.new, (t, []), fun _ => none, 0, []⟩

variable {τ : Type}

/-- What the trampoline finds outside the adapter during a completion. -/
def upcallMachine (api : VmbApi τ) (c : Completion) : Machine Upcalls (τ × List (Event VmbC)) :=
  fun x call =>
    match call with
    | .systemTime => (c.hostTsNs, x)
    | .invoke _ _ => (c.outcome, x)
    | .vmbCaptureFrameQueue h ptr callback => api.logged x (.vmbCaptureFrameQueue h ptr callback)
    | .dangling _ => ((), x)

/-- The invocation a call is. -/
def invocation : Event Upcalls → Option (FrameCallback × Frame)
  | ⟨.invoke f frame, _⟩ => some (f, frame)
  | _ => none

/-- The SDK completes a frame, if it has it and its context is still in `frames`. -/
noncomputable def Running.complete (api : VmbApi τ) (x : Running τ) (c : Completion) : Running τ :=
  match x.adapter.frames.lookup c.slot with
  | none => x
  | some box =>
    if Queued x.sdk.2 box.addr then
      { x with
        adapter := x.adapter.fill c.slot c.filled
        sdk := ((Ffi.complete x.adapter c).run (upcallMachine api c) x.sdk).2
        delivered := x.delivered ++ [{
          frame := box.val.frame.fill c.filled
          owner := x.owner box.addr
          invoked := ((Ffi.complete x.adapter c).history (upcallMachine api c) x.sdk).filterMap
            fun e => invocation e.2 }] }
    else x

/-- The closure behind a new context. -/
def recordOwner (g : Option FrameCallback) (s' : FfiState) (owner : Nat → Option FrameCallback) :
    (c : PortCall) → c.Resp → Nat → Option FrameCallback
  | .announceFrame _ _, .ok slot =>
    match s'.frames.lookup slot with
    | some box => Function.update owner box.addr g
    | none => owner
  | _, _ => owner

/-- The adapter during a method call whose closure is `g`. The SDK completes the frames of
`schedule n` before the `n`-th port call. -/
noncomputable def delivering (api : VmbApi τ) (schedule : Nat → List Completion)
    (g : Option FrameCallback) : VmbRuntime (Running τ) := fun x c =>
  let x := (schedule x.turn).foldl (Running.complete api) x
  let r := vmbFfiRuntime api.logged (x.adapter, x.sdk) c
  (r.1, { x with
    adapter := r.2.1
    sdk := r.2.2
    owner := recordOwner g r.2.1 x.owner c r.1
    turn := x.turn + 1 })

/-- A client program over the adapter, and the completions after its last call. -/
noncomputable def frameDeliveries (api : VmbApi τ) (schedule : Nat → List Completion) :
    List Op → World → Running τ → List Delivered
  | [], _, x => ((schedule x.turn).foldl (Running.complete api) x).delivered
  | op :: ops, W, x =>
    let r := (op.run W).run (delivering api schedule op.action.closure) x
    frameDeliveries api schedule ops r.1.2 r.2

/-- A completed frame is handed once to the closure of its `start_capture`, as the SDK left it; an
incomplete one is not handed to anybody. -/
structure Delivered.Right (d : Delivered) : Prop where
  complete : d.frame.receiveStatus = 0 → ∃ f frame, d.owner = some f ∧ d.invoked = [(f, frame)] ∧
    frame.width = d.frame.width ∧ frame.height = d.frame.height ∧ frame.frameId = d.frame.frameID ∧
    frame.pixelFormat = .fromRaw d.frame.pixelFormat ∧
    (frame.data = [] ↔ d.frame.imageData = 0 ∨ d.frame.bufferSize = 0)
  incomplete : d.frame.receiveStatus ≠ 0 → d.invoked = []

/-! ## The invariant -/

/-- Every context whose frame the SDK has holds the closure of its own `start_capture`. -/
structure Owned (s : FfiState) (log : List (Event VmbC)) (owner : Nat → Option FrameCallback) :
    Prop where
  contexts : ContextsOk s
  bounded : ∀ ptr, Queued log ptr → ptr < s.heap.brk
  closure : ∀ slot box, s.frames.lookup slot = some box → Queued log box.addr →
    ∃ f, owner box.addr = some f ∧ box.val.callback = some f

/-- What the method call in progress has made is in the tables: its callback, and contexts of its own
behind its slots. -/
structure Progress (g : Option FrameCallback) (s : FfiState) (owner : Nat → Option FrameCallback)
    (v : Starting) : Prop where
  callback : ∀ cb, v.callback = some cb → ∃ f, g = some f ∧ s.frameCallbacks.lookup cb = some f
  slots : ∀ slot ∈ v.slots, ∀ box, s.frames.lookup slot = some box → owner box.addr = g

/-- The invariant of a run. -/
structure DeliveryInv (g : Option FrameCallback) (x : Running τ) (v : Starting) : Prop where
  owned : Owned x.adapter x.sdk.2 x.owner
  progress : Progress g x.adapter x.owner v
  right : ∀ d ∈ x.delivered, d.Right

theorem queued_append {log evs : List (Event VmbC)} {ptr : Nat} :
    Queued (log ++ evs) ptr ↔ Queued log ptr ∨ Queued evs ptr := by
  simp only [Queued, List.mem_append, or_and_right, exists_or]

theorem not_queued_of_quiet {evs : List (Event VmbC)} (h : ∀ e ∈ evs, Quiet e.call) (ptr : Nat) :
    ¬ Queued evs ptr := by
  rintro ⟨⟨c, r⟩, he, ha⟩
  have hq := h _ he
  cases c <;> first | exact absurd ha Bool.false_ne_true | exact hq

/-! ## Completions -/

section Completions

variable {api : VmbApi τ} {c : Completion} {x : τ × List (Event VmbC)} {s : FfiState}
  {box : Box TrampolineContext}

/-- Queueing a frame again accepts no other frame. -/
theorem queued_requeue {h : VmbHandle} {addr ptr : Nat}
    (hq : Queued ((requeue h addr).run (upcallMachine api c) x).2.2 ptr) :
    Queued x.2 ptr ∨ ptr = addr := by
  have hlog : ((requeue h addr).run (upcallMachine api c) x).2.2 =
      x.2 ++ [vmbEvent (.vmbCaptureFrameQueue h addr .frameCallbackTrampoline)
        (api x.1 (.vmbCaptureFrameQueue h addr .frameCallbackTrampoline)).1] := rfl
  rw [hlog, queued_append] at hq
  rcases hq with hq | ⟨e, he, ha⟩
  · exact Or.inl hq
  · obtain rfl := List.mem_singleton.mp he
    have ha' : addr = ptr ∧ _ := of_decide_eq_true ha
    exact Or.inr ha'.1.symm

/-- A completion accepts no frame but its own. -/
theorem queued_complete (hs : ContextsOk s) (hbox : s.frames.lookup c.slot = some box) {ptr : Nat}
    (hq : Queued ((complete s c).run (upcallMachine api c) x).2.2 ptr) :
    Queued x.2 ptr ∨ ptr = box.addr := by
  rw [complete_eq hs hbox] at hq
  by_cases hstatus : c.filled.receiveStatus = 0
  · simp only [hstatus, if_true] at hq
    rcases hf : box.val.callback with - | f
    · rw [hf] at hq
      exact queued_requeue hq
    · simp only [hf, deliver, Prog.run_call] at hq
      rcases hout : c.outcome with ⟨⟨⟩⟩ | m
      · simp only [upcallMachine, hout] at hq
        exact queued_requeue hq
      · simp only [upcallMachine, hout] at hq
        exact Or.inl hq
  · simp only [hstatus, if_false] at hq
    exact queued_requeue hq

/-- **A completion invokes the closure of its context once**, and only when the frame is complete. -/
theorem invoked_complete (hs : ContextsOk s) (hbox : s.frames.lookup c.slot = some box)
    {f : FrameCallback} (hf : box.val.callback = some f) :
    ((complete s c).history (upcallMachine api c) x).filterMap (fun e => invocation e.2) =
      if c.filled.receiveStatus = 0 then [(f, frameSeen c box c.hostTsNs)] else [] := by
  rw [complete_eq hs hbox]
  by_cases hstatus : c.filled.receiveStatus = 0
  · simp only [hstatus, if_true, hf, deliver]
    rcases hout : c.outcome with ⟨⟨⟩⟩ | m
    · simp only [Prog.history, upcallMachine, hout]
      rfl
    · simp only [Prog.history, upcallMachine, hout]
      rfl
  · simp only [hstatus, if_false]
    rfl

/-- What a closure sees is what the SDK wrote. -/
theorem right_frameSeen (f : FrameCallback) :
    (⟨box.val.frame.fill c.filled, some f,
      if c.filled.receiveStatus = 0 then [(f, frameSeen c box c.hostTsNs)] else []⟩ :
      Delivered).Right where
  complete hstatus := by
    refine ⟨f, frameSeen c box c.hostTsNs, rfl, if_pos hstatus, rfl, rfl, rfl, rfl, ?_⟩
    have hsize : box.val.frame.bufferSize = 0 ↔ box.val.frame.bufferSize.toNat = 0 :=
      UInt32.toNat_inj.symm
    show (if c.filled.imageData = 0 ∨ box.val.frame.bufferSize.toNat = 0 then [] else _) = [] ↔
      c.filled.imageData = 0 ∨ box.val.frame.bufferSize = 0
    rw [hsize]
    split
    · exact iff_of_true rfl ‹_›
    · refine iff_of_false (fun hempty => ?_) ‹_›
      have hlength := congrArg List.length hempty
      simp only [List.length_map, List.length_range, List.length_nil] at hlength
      exact ‹¬ _› (Or.inr hlength)
  incomplete hstatus := if_neg hstatus

/-- **Completions keep the invariant**, and every one of them is right. -/
theorem DeliveryInv.complete {g : Option FrameCallback} {x : Running τ} {v : Starting}
    (h : DeliveryInv g x v) (api : VmbApi τ) (c : Completion) :
    DeliveryInv g (x.complete api c) v := by
  unfold Running.complete
  rcases hbox : x.adapter.frames.lookup c.slot with - | box
  · exact h
  · simp only
    split
    · have hqueued : Queued x.sdk.2 box.addr := ‹_›
      obtain ⟨f, howner, hf⟩ := h.owned.closure c.slot box hbox hqueued
      have hlog : ∀ ptr, Queued ((Ffi.complete x.adapter c).run (upcallMachine api c) x.sdk).2.2 ptr →
          Queued x.sdk.2 ptr := by
        intro ptr hptr
        rcases queued_complete h.owned.contexts hbox hptr with hptr | rfl
        · exact hptr
        · exact hqueued
      refine ⟨⟨h.owned.contexts.fill _ _, fun ptr hptr => ?_, fun slot box' hb hq => ?_⟩,
        ⟨fun cb hcb => ?_, fun slot hslot box' hb => ?_⟩, fun d hd => ?_⟩
      · rw [FfiState.fill_heap]
        exact h.owned.bounded ptr (hlog ptr hptr)
      · obtain ⟨box'', hb'', haddr, hcallback, -⟩ := FfiState.lookup_fill hb
        rw [haddr, hcallback]
        exact h.owned.closure slot box'' hb'' (haddr ▸ hlog _ hq)
      · obtain ⟨f', hg, hcb'⟩ := h.progress.callback cb hcb
        refine ⟨f', hg, ?_⟩
        rw [FfiState.fill_eq hbox]
        exact hcb'
      · obtain ⟨box'', hb'', haddr, -⟩ := FfiState.lookup_fill hb
        rw [haddr]
        exact h.progress.slots slot hslot box'' hb''
      · rcases List.mem_append.mp hd with hd | hd
        · exact h.right d hd
        · obtain rfl := List.mem_singleton.mp hd
          rw [howner, invoked_complete h.owned.contexts hbox hf]
          exact right_frameSeen f
    · exact h

theorem DeliveryInv.completions {g : Option FrameCallback} {x : Running τ} {v : Starting}
    (h : DeliveryInv g x v) (api : VmbApi τ) (cs : List Completion) :
    DeliveryInv g (cs.foldl (Running.complete api) x) v := by
  induction cs generalizing x with
  | nil => exact h
  | cons c cs ih => exact ih (h.complete api c)

end Completions

/-! ## Port calls -/

section Calls

variable {g : Option FrameCallback} {s s' : FfiState} {log evs : List (Event VmbC)}
  {owner : Nat → Option FrameCallback} {v : Starting} {c : PortCall} {r : c.Resp}

/-- A port call that leaves the contexts alone, and the SDK without a new frame. -/
theorem Owned.of_frames (hs : Owned s log owner) (hok : ContextsOk s') (hframes : s'.frames = s.frames)
    (hbrk : s.heap.brk ≤ s'.heap.brk) (hevs : ∀ ptr, ¬ Queued evs ptr) :
    Owned s' (log ++ evs) owner := by
  have hlog : ∀ ptr, Queued (log ++ evs) ptr → Queued log ptr := by
    intro ptr hq
    exact (queued_append.mp hq).resolve_right (hevs ptr)
  refine ⟨hok, fun ptr hq => ?_, ?_⟩
  · exact Nat.lt_of_lt_of_le (hs.bounded ptr (hlog ptr hq)) hbrk
  · rw [hframes]
    exact fun slot box hb hq => hs.closure slot box hb (hlog _ hq)

/-- A port call that leaves both tables alone. -/
theorem Owned.keep (hs : Owned s log owner) (hp : Progress g s owner v) (hok : ContextsOk s')
    (hframes : s'.frames = s.frames) (hcallbacks : s'.frameCallbacks = s.frameCallbacks)
    (hbrk : s.heap.brk ≤ s'.heap.brk) (hevs : ∀ ptr, ¬ Queued evs ptr) :
    Owned s' (log ++ evs) owner ∧ Progress g s' owner v := by
  refine ⟨hs.of_frames hok hframes hbrk hevs, ?_, ?_⟩
  · rw [hcallbacks]
    exact hp.callback
  · rw [hframes]
    exact hp.slots

/-- An announcement gives the new context to the method call in progress. -/
theorem Owned.announced (hs : Owned s log owner) (hp : Progress g s owner v) {size : UInt32}
    (hok : ContextsOk s') (hframes : s'.frames = s.frames.insert ⟨s.currentId⟩ (announcedBox s size))
    (hcallbacks : s'.frameCallbacks = s.frameCallbacks) (hbrk : s.heap.brk ≤ s'.heap.brk)
    (hevs : ∀ ptr, ¬ Queued evs ptr) :
    Owned s' (log ++ evs) (Function.update owner (announcedBox s size).addr g) ∧
      Progress g s' (Function.update owner (announcedBox s size).addr g)
        { v with slots := v.slots ++ [⟨s.currentId⟩] } := by
  have hlog : ∀ ptr, Queued (log ++ evs) ptr → Queued log ptr := by
    intro ptr hq
    exact (queued_append.mp hq).resolve_right (hevs ptr)
  have hfresh : s.heap.brk ≤ (announcedBox s size).addr := by
    rw [announcedBox_addr]
    omega
  have hold : ∀ slot box, s.frames.lookup slot = some box →
      Function.update owner (announcedBox s size).addr g box.addr = owner box.addr := by
    intro slot box hb
    have hlt := hs.contexts.lt_brk slot box hb
    exact Function.update_of_ne (by omega) _ _
  refine ⟨⟨hok, fun ptr hq => ?_, fun slot box hb hq => ?_⟩, ⟨?_, fun slot hslot box hb => ?_⟩⟩
  · exact Nat.lt_of_lt_of_le (hs.bounded ptr (hlog ptr hq)) hbrk
  · rw [hframes] at hb
    rcases lookup_insert_eq_some.mp hb with ⟨-, rfl⟩ | ⟨-, hb⟩
    · -- The address is new, so the SDK cannot have accepted it before.
      have hlt := hs.bounded _ (hlog _ hq)
      omega
    · rw [hold slot box hb]
      exact hs.closure slot box hb (hlog _ hq)
  · rw [hcallbacks]
    exact hp.callback
  · rw [hframes] at hb
    rcases lookup_insert_eq_some.mp hb with ⟨-, rfl⟩ | ⟨hne, hb⟩
    · exact Function.update_self _ _ _
    · rw [hold slot box hb]
      refine hp.slots slot ?_ box hb
      rcases List.mem_append.mp hslot with hslot | hslot
      · exact hslot
      · exact absurd (List.mem_singleton.mp hslot) hne

/-- Queueing gives the context the closure of the method call in progress. -/
theorem Owned.queued (hs : Owned s log owner) (hp : Progress g s owner v) {slot : FrameSlotId}
    {cb : FrameCallbackId} {raw : VmbHandle} {f : FrameCallback} {box : Box TrampolineContext}
    {rc : Int32} (hpre : v.callback = some cb ∧ slot ∈ v.slots)
    (hcb : s.frameCallbacks.lookup cb = some f) (hslot : s.frames.lookup slot = some box)
    (hok : ContextsOk { s with frames := s.frames.insert slot (queuedBox box f) }) :
    Owned { s with frames := s.frames.insert slot (queuedBox box f) }
        (log ++ [vmbEvent (.vmbCaptureFrameQueue raw box.addr .frameCallbackTrampoline) rc]) owner ∧
      Progress g { s with frames := s.frames.insert slot (queuedBox box f) } owner v := by
  have hlog : ∀ ptr, Queued (log ++ [vmbEvent (.vmbCaptureFrameQueue raw box.addr
      .frameCallbackTrampoline) rc]) ptr → Queued log ptr ∨ ptr = box.addr := by
    intro ptr hq
    rcases queued_append.mp hq with hq | ⟨e, he, ha⟩
    · exact Or.inl hq
    · obtain rfl := List.mem_singleton.mp he
      have ha' : box.addr = ptr ∧ rc = 0 := of_decide_eq_true ha
      exact Or.inr ha'.1.symm
  have howner : owner box.addr = g := hp.slots slot hpre.2 box hslot
  obtain ⟨f', hg, hcb'⟩ := hp.callback cb hpre.1
  obtain rfl : f = f' := by
    rw [hcb] at hcb'
    exact Option.some.inj hcb'
  refine ⟨⟨hok, fun ptr hq => ?_, fun slot' box' hb hq => ?_⟩,
    ⟨hp.callback, fun slot' hslot' box' hb => ?_⟩⟩
  · rcases hlog ptr hq with hq | rfl
    · exact hs.bounded ptr hq
    · exact hs.contexts.lt_brk slot box hslot
  · rcases lookup_insert_eq_some.mp hb with ⟨-, rfl⟩ | ⟨hne, hb⟩
    -- the queued context now holds the closure of the call in progress, its owner
    · exact ⟨f, howner.trans hg, rfl⟩
    · rcases hlog _ hq with hq | haddr
      · exact hs.closure slot' box' hb hq
      -- two slots never share a context
      · exact absurd (hs.contexts.injective slot' slot box' box hb hslot haddr) hne
  · rcases lookup_insert_eq_some.mp hb with ⟨-, rfl⟩ | ⟨-, hb⟩
    · exact howner
    · exact hp.slots slot' hslot' box' hb

/-- **Every port call of a method call keeps the closures where they belong.** -/
theorem Step.owned (h : Step s c evs r s') (hs : Owned s log owner) (hp : Progress g s owner v)
    (hpre : (startContract g).pre v c) :
    Owned s' (log ++ evs) (recordOwner g s' owner c r) ∧
      Progress g s' (recordOwner g s' owner c r) ((startContract g).next v c r) := by
  have hok : ContextsOk s' := h.contextsOk hs.contexts
  have hbrk := h.brk_le
  cases h with
  | announced h size raw hraw =>
      have hrecord : recordOwner g { s with
          heap := announcedHeap s size
          counter := s.counter + 1
          frames := s.frames.insert ⟨s.currentId⟩ (announcedBox s size) } owner
          (.announceFrame h size) (.ok ⟨s.currentId⟩) =
          Function.update owner (announcedBox s size).addr g := by
        unfold recordOwner
        simp only [Finmap.lookup_insert]
      rw [hrecord]
      refine hs.announced hp hok rfl rfl hbrk fun ptr hq => ?_
      obtain ⟨e, he, ha⟩ := hq
      obtain rfl := List.mem_singleton.mp he
      exact absurd ha Bool.false_ne_true
  | queued h slot cb raw f box rc hraw hcb hslot => exact hs.queued hp hpre hcb hslot hok
  | revoked h raw rc hraw =>
      have hlog : ∀ ptr, Queued (log ++ [vmbEvent (.vmbFrameRevokeAll raw) rc]) ptr →
          Queued log ptr := by
        intro ptr hq
        refine (queued_append.mp hq).resolve_right ?_
        rintro ⟨e, he, ha⟩
        obtain rfl := List.mem_singleton.mp he
        exact absurd ha Bool.false_ne_true
      -- no context is left, so nothing is asked of one
      exact ⟨⟨hok, fun ptr hq => hs.bounded ptr (hlog ptr hq), by simp⟩, hp.callback, by simp⟩
  | installedFrame f =>
      refine ⟨hs.of_frames hok rfl hbrk (by simp [Queued]), fun cb hcb => ?_, hp.slots⟩
      obtain rfl : ⟨s.currentId⟩ = cb := Option.some.inj hcb
      exact ⟨f, hpre, Finmap.lookup_insert _⟩
  | uninstalledFrame cb' =>
      refine ⟨hs.of_frames hok rfl hbrk (by simp [Queued]), fun cb hcb => ?_, hp.slots⟩
      cases hcb
  | lifecycle c evs r b hc hevs =>
      rcases hc with rfl | rfl
      · exact hs.keep hp hok rfl rfl hbrk (not_queued_of_quiet hevs)
      · exact hs.keep hp hok rfl rfl hbrk (not_queued_of_quiet hevs)
  | quiet c evs r hr hevs =>
      have hkeep := hs.keep hp hok rfl rfl hbrk (not_queued_of_quiet hevs)
      cases c with
      | announceFrame h size => exact absurd hr id
      | installFrameCallback f => exact absurd hr id
      | uninstallFrameCallback cb => exact absurd hr id
      | _ => exact hkeep
  | refused c r hc hr =>
      have hnone : ∀ ptr, ¬ Queued ([] : List (Event VmbC)) ptr := by simp [Queued]
      have hkeep := hs.keep hp hok rfl rfl hbrk hnone
      cases c with
      | announceFrame h size =>
          obtain ⟨context, rfl⟩ := hr
          exact hkeep
      | installFrameCallback f => exact absurd hc id
      | uninstallFrameCallback cb => exact absurd hc id
      | _ => exact hkeep
  | _ => exact hs.keep hp hok rfl rfl hbrk (by simp [Queued, accepts, vmbEvent])

end Calls

/-! ## Runs -/

/-- One port call, after the completions before it. -/
theorem deliveryInv_step (api : VmbApi τ) (schedule : Nat → List Completion)
    (g : Option FrameCallback) (x : Running τ) (v : Starting) (c : PortCall)
    (h : DeliveryInv g x v) (hpre : (startContract g).pre v c) :
    DeliveryInv g (delivering api schedule g x c).2
      ((startContract g).next v c (delivering api schedule g x c).1) := by
  have hx := h.completions api (schedule x.turn)
  unfold delivering
  generalize (schedule x.turn).foldl (Running.complete api) x = y at hx
  obtain ⟨evs, hstep, hlog, -⟩ := vmbFfiRuntime_step api y.adapter y.sdk.1 y.sdk.2 c
  obtain ⟨howned, hprogress⟩ := hstep.owned hx.owned hx.progress hpre
  refine ⟨?_, hprogress, hx.right⟩
  show Owned _ (vmbFfiRuntime api.logged (y.adapter, y.sdk) c).2.2.2 _
  rw [hlog]
  exact howned

/-- The next method call starts with nothing of its own. -/
theorem DeliveryInv.next {g g' : Option FrameCallback} {x : Running τ} {v : Starting}
    (h : DeliveryInv g x v) : DeliveryInv g' x {} :=
  ⟨h.owned, ⟨by simp, by simp⟩, h.right⟩

theorem deliveryInv_start (t : τ) : DeliveryInv none (Running.start t) {} where
  owned := ⟨contextsOk_new, by simp [Running.start, Queued], by simp [Running.start, FfiState.new]⟩
  progress := ⟨by simp, by simp⟩
  right := by simp [Running.start]

theorem right_of_deliveryInv (api : VmbApi τ) (schedule : Nat → List Completion) (ops : List Op)
    (W : World) {g : Option FrameCallback} {x : Running τ} {v : Starting} (h : DeliveryInv g x v) :
    ∀ d ∈ frameDeliveries api schedule ops W x, d.Right := by
  induction ops generalizing W g x v with
  | nil => exact (h.completions api (schedule x.turn)).right
  | cons op ops ih =>
      have hmeets : (op.run W).Meets (startContract op.action.closure) (fun _ _ => True) {} := by
        unfold Op.run
        split
        · exact Prog.meets_bind.mpr ((perform_starting op.action _).mono fun _ _ _ => trivial)
        · trivial
      obtain ⟨v', -, hv'⟩ := hmeets.run_invariant (m := delivering api schedule op.action.closure)
        (I := DeliveryInv op.action.closure)
        (fun x v c hx hpre => deliveryInv_step api schedule _ x v c hx hpre) h.next
      exact ih _ hv'

/-- **Each completed frame reaches the right closure exactly once**, whatever client programs start
and stop, whatever the SDK returns and whenever it completes the frames it has. -/
theorem deliveries_right (api : VmbApi τ) (schedule : Nat → List Completion) (t : τ) (ops : List Op) :
    ∀ d ∈ frameDeliveries api schedule ops .empty (.start t), d.Right :=
  right_of_deliveryInv api schedule ops .empty (deliveryInv_start t)

/-- The one frame is completed when the port calls of `captureOne` are over. -/
def afterCapture (turn : Nat) : List Completion :=
  if turn = 7 then [completeOne 0 (.returned ())] else []

/-- The completions of a capture with one buffer. -/
noncomputable def oneDelivery : List Delivered :=
  frameDeliveries mockApi afterCapture captureOne .empty (.start 1)

theorem deliveries_right_oneFrame : ∃ d, oneDelivery = [d] ∧ d.Right ∧
    ∃ frame, d.invoked = [(⟨7⟩, frame)] ∧ frame.width = 32 ∧ frame.height = 32 := by
  have hlength : oneDelivery.length = 1 := by decide +kernel
  obtain ⟨d, hd⟩ := List.length_eq_one_iff.mp hlength
  have hright : d.Right := by
    refine deliveries_right mockApi afterCapture 1 captureOne d ?_
    show d ∈ oneDelivery
    rw [hd]
    exact List.mem_singleton_self d
  -- What the SDK wrote and the owner are read off the run; only the invocation needs the theorem.
  have hframe : oneDelivery.map (fun d => (d.frame.receiveStatus, d.owner)) = [(0, some ⟨7⟩)] := by
    decide +kernel
  have hsize : oneDelivery.map (fun d => (d.frame.width, d.frame.height)) = [(32, 32)] := by
    decide +kernel
  rw [hd] at hframe hsize
  obtain ⟨hstatus, howner⟩ := Prod.mk.inj (List.singleton_inj.mp hframe)
  obtain ⟨hwidth, hheight⟩ := Prod.mk.inj (List.singleton_inj.mp hsize)
  obtain ⟨f, frame, hf, hinvoked, hw, hh, -⟩ := hright.complete hstatus
  obtain rfl : (⟨7⟩ : FrameCallback) = f := Option.some.inj (howner.symm.trans hf)
  exact ⟨d, hd, hright, frame, hinvoked, hw.trans hwidth, hh.trans hheight⟩

end Vmb.Ffi

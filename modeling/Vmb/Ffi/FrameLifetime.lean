/-
# Vmb.Ffi.FrameLifetime -- frame contexts outlive their callbacks

The SDK calls `frame_callback_trampoline` on threads of its own with the frames it has been given, and the
trampoline gives them back with `VmbCaptureFrameQueue`. Here threads work on their own cameras, any number
of trampolines run meanwhile, and the steps of all of them interleave. What a closure does to cameras is a
move of the owner of the camera.

If the frames of two cameras are never announced at one time (`Apart`), every frame the SDK may complete
has its context in the table, and so has every trampoline until it returns (`frames_outlive`): none of them
ever follows a dangling pointer. The SDK has to promise `QueueRules`, and that `VmbFrameRevokeAll` succeeds
and waits for the callbacks of the camera (`Prompted`).
-/
import Vmb.Ffi.FrameOwners

namespace Vmb.Ffi

open Vmb.Lib Vmb.Core Vmb.Sdk

variable {ι τ : Type}

/-! ## Threads and trampolines -/

/-- Threads with a domain object each, and the trampolines on the threads of the SDK. -/
structure Station (τ ι : Type) where
  clients : Clients τ ι
  calls : List FrameCall

inductive StationMove (ι : Type) where
  | client (mv : Move ι Action)
  /-- The SDK writes the descriptor of a frame. -/
  | fill (slot : FrameSlotId) (filled : Filled)
  /-- The SDK calls the trampoline; `byte` is the memory of the pixels. -/
  | callback (cameraHandle : VmbHandle) (framePtr : Nat) (byte : Nat → UInt8)
  /-- A trampoline goes on; the time and the end of the closure are the answers it gets if it asks. -/
  | resume (i : Nat) (hostTsNs : UInt64) (outcome : Exit Unit)

/-- Change what the threads share. -/
def Station.share (S : Station τ ι) (s : FfiState) (t : τ) : Station τ ι :=
  { S with clients := { S.clients with shared := (s, t) } }

variable [DecidableEq ι]

/-- One move. -/
noncomputable def Station.move (api : VmbApi τ) (S : Station τ ι) : StationMove ι → Station τ ι
  | .client mv => { S with clients := S.clients.move (stepMachine api) clientSteps mv }
  | .fill slot filled => S.share (S.clients.shared.1.fill slot filled) S.clients.shared.2
  | .callback cameraHandle framePtr byte =>
    let mem : Memory := ⟨S.clients.shared.1.contextAt, byte⟩
    { S with calls := S.calls ++
        [⟨cameraHandle, framePtr, frameCallbackTrampoline mem cameraHandle framePtr⟩] }
  | .resume i hostTsNs outcome =>
    match S.calls[i]? with
    | none => S
    | some call =>
      match call.rest with
      | .done () => { S with calls := S.calls.eraseIdx i }
      | .call c k =>
        let (r, t) := answerUpcall api S.clients.shared.2 hostTsNs outcome c
        { S.share S.clients.shared.1 t with calls := S.calls.set i { call with rest := k r } }

/-- A trampoline that goes on returns, or gets an answer. -/
theorem Station.resume_cases (api : VmbApi τ) (S : Station τ ι) (i : Nat) (hostTsNs : UInt64)
    (outcome : Exit Unit) :
    S.move api (.resume i hostTsNs outcome) = S ∨
      S.move api (.resume i hostTsNs outcome) = { S with calls := S.calls.eraseIdx i } ∨
      ∃ call c k, call ∈ S.calls ∧ call.rest = .call c k ∧
        S.move api (.resume i hostTsNs outcome) =
          { S.share S.clients.shared.1 (answerUpcall api S.clients.shared.2 hostTsNs outcome c).2 with
            calls := S.calls.set i
              { call with rest := k (answerUpcall api S.clients.shared.2 hostTsNs outcome c).1 } } := by
  unfold Station.move
  rcases hcall : S.calls[i]? with - | call
  · left
    simp only [hcall]
  · right
    simp only [hcall]
    rcases hrest : call.rest with ⟨⟨⟩⟩ | ⟨c, k⟩
    · exact Or.inl rfl
    · exact Or.inr ⟨call, c, k, List.mem_of_getElem? hcall, hrest, rfl⟩

/-- A schedule. -/
noncomputable def Station.run (api : VmbApi τ) (S : Station τ ι) (moves : List (StationMove ι)) :
    Station τ ι := moves.foldl (fun S mv => S.move api mv) S

/-- Every move of the schedule is `ok` where it is made. -/
def Station.Along (api : VmbApi τ) (ok : Station τ ι → StationMove ι → Prop) :
    Station τ ι → List (StationMove ι) → Prop
  | _, [] => True
  | S, mv :: moves => ok S mv ∧ Station.Along api ok (S.move api mv) moves

theorem Station.run_append (api : VmbApi τ) (S : Station τ ι) (moves : List (StationMove ι))
    (mv : StationMove ι) : S.run api (moves ++ [mv]) = (S.run api moves).move api mv := by
  simp [Station.run]

theorem Station.along_append {api : VmbApi τ} {ok : Station τ ι → StationMove ι → Prop}
    {S : Station τ ι} {moves : List (StationMove ι)} {mv : StationMove ι} :
    Station.Along api ok S (moves ++ [mv]) ↔ Station.Along api ok S moves ∧ ok (S.run api moves) mv := by
  induction moves generalizing S with
  | nil => simp [Station.Along, Station.run]
  | cons mv' moves ih =>
      show ok S mv' ∧ Station.Along api ok (S.move api mv') (moves ++ [mv]) ↔ _
      rw [ih]
      exact and_assoc.symm

/-- No thread has done anything, and the adapter is new. -/
def station (t : τ) (started : Bool) : Station τ ι :=
  ⟨Pool.init ({ FfiState.new with started := started }, t) none, []⟩

/-! ## What the SDK promises, and what the threads owe -/

/-- The SDK completes the frames it holds. A revocation is not refused, and it waits for the callbacks of the
camera: it is made when none is running. -/
def Prompted (api : VmbApi τ) (held : τ → VmbHandle → Nat → Prop) (S : Station τ ι) :
    StationMove ι → Prop
  | .callback cameraHandle framePtr _ => held S.clients.shared.2 cameraHandle framePtr
  | .client (.step t) => ∀ c ∈ S.clients.nextCall t, ∀ raw ∈ revokesFrom c,
      (∀ call ∈ S.calls, call.cameraHandle ≠ raw) ∧
        (api S.clients.shared.2 (.vmbFrameRevokeAll raw)).1 = (0 : Int32)
  | _ => True

/-- No frame of another camera is announced. -/
def OnlyFramesOf (raw : VmbHandle) (log : List (Event VmbC)) : Prop :=
  ∀ raw' ptr, SdkAnnounced raw' log ptr → raw' = raw

/-- The step clears the table of frames. -/
def clearsTable : AtomicStep → Bool
  | .access .clearFrames => true
  | _ => false

/-- The frames of two cameras are not announced at one time: a camera is announced to or revoked while no
frame of another one is announced, and announced to while no thread is about to clear the table. -/
def Apart (S : Station τ ι) : StationMove ι → Prop
  | .client (.step t) => ∀ c ∈ S.clients.nextCall t,
      (∀ raw ∈ announcesTo c, OnlyFramesOf raw (sdkTrace S.clients.log) ∧
        ∀ u, ∀ c' ∈ S.clients.nextCall u, clearsTable c' = false) ∧
      ∀ raw ∈ revokesFrom c, OnlyFramesOf raw (sdkTrace S.clients.log)
  | _ => True

/-! ## Moves -/

/-- The threads keep the rules of the SDK and their duties, and the frames of all threads are kept. -/
structure StationKept (held : τ → VmbHandle → Nat → Prop) (S : Station τ ι) : Prop where
  rules : RulesKept S.clients
  duties : S.clients.Sound frameDuty {} (fun _ _ => True) (fun _ d => d.clears = false) fun _ => True
  frames : ∀ view, Pool.view trustingSdk (some {}) S.clients.log = (fun u => some (view u)) →
    FramesKept held S.calls (Pool.view frameDuty {} S.clients.log) view S.clients.shared.1
      S.clients.shared.2

variable {api : VmbApi τ} {held : τ → VmbHandle → Nat → Prop} {S : Station τ ι}

omit [DecidableEq ι] in
/-- The views are what the log says. -/
theorem view_unique {o : ι → Option CameraView} {view view' : ι → CameraView}
    (h : o = fun u => some (view u)) (h' : o = fun u => some (view' u)) : view' = view :=
  funext fun u => Option.some.inj (congrFun (h'.symm.trans h) u)

theorem StationKept.init (t : τ) (started : Bool) (hnone : ∀ raw ptr, ¬ held t raw ptr) :
    StationKept held (station t started : Station τ ι) where
  rules := RulesKept.init _ t rfl fun _ => not_has_new
  duties := Pool.sound_init rfl
  frames view hview := by
    obtain rfl : view = fun _ => {} := view_unique (h := rfl) hview
    exact FramesKept.init hnone rfl

/-- A change of the shared state that concerns only what the SDK writes. -/
theorem RulesKept.share {P : Clients τ ι} (h : RulesKept P) {s : FfiState} {t : τ}
    (hcounter : s.counter = P.shared.1.counter) (hhas : ∀ k, s.Has k → P.shared.1.Has k)
    (hcameras : s.cameras = P.shared.1.cameras)
    (hframes : ∀ slot ctx, s.frames.lookup slot = some ctx →
      ∃ ctx', P.shared.1.frames.lookup slot = some ctx' ∧ ctx'.addr = ctx.addr) :
    RulesKept { P with shared := (s, t) } := by
  obtain ⟨view, hview, hinv⟩ := h.accounts
  refine ⟨⟨h.sound.resting, h.sound.running, h.sound.results⟩, h.numbered.share hcounter hhas,
    ⟨view, hview, hcameras ▸ hinv.table, fun u slot ptr hframe => ?_, hinv.single, hinv.owned,
      hinv.unowned, hinv.apart⟩, h.rules⟩
  obtain ⟨hfiled, haddr⟩ := hinv.frames u slot ptr hframe
  refine ⟨hfiled, fun ctx hctx => ?_⟩
  obtain ⟨ctx', hctx', heq⟩ := hframes slot ctx hctx
  exact heq.symm.trans (haddr ctx' hctx')

theorem FfiState.fill_keeps (s : FfiState) (slot : FrameSlotId) (w : Filled) :
    (s.fill slot w).counter = s.counter ∧ (s.fill slot w).cameras = s.cameras := by
  unfold FfiState.fill
  split <;> exact ⟨rfl, rfl⟩

/-- The SDK fills a frame. -/
theorem StationKept.fill (h : StationKept held S) (slot : FrameSlotId) (w : Filled) :
    StationKept held (S.share (S.clients.shared.1.fill slot w) S.clients.shared.2) := by
  obtain ⟨hcounter, hcameras⟩ := S.clients.shared.1.fill_keeps slot w
  refine ⟨h.rules.share hcounter (fun k hk => ?_) hcameras fun slot' ctx hctx => ?_,
    ⟨h.duties.resting, h.duties.running, h.duties.results⟩,
    fun view hview => (h.frames view hview).fill slot w⟩
  · exact FfiState.has_of_fill hk
  · obtain ⟨box, hbox, haddr, -⟩ := FfiState.lookup_fill hctx
    exact ⟨box, hbox, haddr.symm⟩

/-- The trampolines are other ones, or the SDK has got a frame back. -/
theorem StationKept.exchange (h : StationKept held S) {calls : List FrameCall} {t : τ}
    (hframes : ∀ (duty : ι → FrameDuty) view s,
      FramesKept held S.calls duty view s S.clients.shared.2 → FramesKept held calls duty view s t) :
    StationKept held { S.share S.clients.shared.1 t with calls := calls } where
  rules := h.rules.share rfl (fun _ => id) rfl fun _ ctx hctx => ⟨ctx, hctx, rfl⟩
  duties := ⟨h.duties.resting, h.duties.running, h.duties.results⟩
  frames view hview := hframes _ _ _ (h.frames view hview)

/-- No thread is about to clear the table, so none owes it. -/
theorem StationKept.settled (h : StationKept held S)
    (hquiet : ∀ u, ∀ c ∈ S.clients.nextCall u, clearsTable c = false) (u : ι) :
    (Pool.view frameDuty {} S.clients.log u).clears = false := by
  rcases hrun : (S.clients.threads u).running with - | ⟨r⟩ | ⟨c, k⟩
  · exact h.duties.resting u hrun
  · exact (h.duties.running u _ hrun).1
  · have hpre := (h.duties.running u _ hrun).1
    refine Bool.eq_false_iff.mpr fun hclears => ?_
    obtain rfl := hpre.1.mp hclears
    cases hquiet u _ (Pool.mem_nextCall_iff.mpr ⟨k, hrun⟩)

/-- Only the thread that has the camera has announced frames. -/
theorem StationKept.alone (h : StationKept held S) {view : ι → CameraView}
    (hview : Pool.view trustingSdk (some {}) S.clients.log = fun u => some (view u)) {raw : VmbHandle}
    (honly : OnlyFramesOf raw (sdkTrace S.clients.log)) {u : ι} (howns : (view u).Owns raw) (u' : ι)
    (ptr : Nat) (hne : u' ≠ u) : ¬ (view u').Announced ptr := by
  intro hptr
  obtain ⟨view', hview', hinv⟩ := h.rules.accounts
  obtain rfl := view_unique hview hview'
  obtain ⟨raw', howns'⟩ := (h.frames _ hview).rooted u' ptr hptr
  obtain rfl := honly raw' ptr (((hinv.owned u' raw' howns').2.announced ptr).mpr hptr)
  exact hne (hinv.apart u' u _ howns' howns)

/-- After a step that is answered as promised, one view has changed. -/
theorem view_of_step {log : List (ι × Event Steps)} {view view' : ι → CameraView} {u : ι}
    {e : Event Steps} (hview : Pool.view trustingSdk (some {}) log = fun u => some (view u))
    (hview' : Pool.view trustingSdk (some {}) (log ++ [(u, e)]) = fun u => some (view' u))
    (hanswers : Answers (view u) e.call e.resp) :
    view' = Function.update view u (atSdk.next (view u) e.call e.resp) :=
  view_unique (view_trusting hview hanswers) hview'

/-- **A move of a thread keeps the frames.** -/
theorem StationKept.client (h : StationKept held S) (rules : QueueRules api held) {mv : Move ι Action}
    (hprompted : Prompted api held S (.client mv)) (hapart : Apart S (.client mv))
    (hlimit : (S.clients.move (stepMachine api) clientSteps mv).shared.1.counter ≤ 2 ^ 64)
    (hid : S.clients.shared.1.currentId ≠ 0)
    (hfresh : FreshOpens (sdkTrace (S.clients.move (stepMachine api) clientSteps mv).log)) :
    StationKept held { S with clients := S.clients.move (stepMachine api) clientSteps mv } := by
  refine ⟨h.rules.move api hid hlimit hfresh, ?_, ?_⟩
  · refine Pool.Sound.move (m := stepMachine api) h.duties mv (fun t a obj d _ hd => ?_)
      fun _ _ _ _ => trivial
    exact ((clientSteps_duty a obj hd).mono fun _ _ hd => ⟨hd, trivial⟩).ensures
  rcases S.clients.move_cases (stepMachine api) clientSteps mv with
    ⟨hshared, hlog⟩ | ⟨u, c, rfl, hcalls, hshared, hlog⟩
  · dsimp only
    rw [hshared, hlog]
    exact h.frames
  obtain ⟨view, hview, hinv⟩ := h.rules.accounts
  have hkept := h.frames view hview
  have hpre := h.rules.pre hview hcalls
  have hduty := h.duties.pre hcalls
  have hnext := Pool.mem_nextCall_iff.mpr hcalls
  intro view' hview'
  dsimp only at hview' ⊢
  rcases c with c | c
  · rw [hlog] at hview'
    obtain rfl := view_of_step hview hview' trivial
    rw [hshared, hlog, Pool.view_append]
    rcases hrevokes : revokesFrom (.sdk c) with - | raw
    · refine hkept.sdk rules hpre hrevokes fun hannounces u' _ => ?_
      obtain ⟨raw, hraw⟩ := Option.ne_none_iff_exists'.mp hannounces
      exact h.settled ((hapart _ hnext).1 raw hraw).2 u'
    · cases c <;> cases hrevokes
      obtain ⟨hidle, haccepted⟩ := hprompted _ hnext raw rfl
      have howns : (view u).Owns raw := owns_of_pre rfl hpre
      refine hkept.revoke rules (fun raw' howns' => hinv.owns_eq howns' howns) (fun u' ptr hne => ?_) hidle
        haccepted
      exact h.alone hview ((hapart _ hnext).2 raw rfl) howns u' ptr hne
  · rw [hlog] at hview'
    obtain rfl := view_of_step hview hview' (hinv.answers hid hpre)
    rw [hshared, hlog, Pool.view_append]
    refine hkept.access hpre hduty (hinv.answers hid hpre) fun slot ctx hc u' ptr hframe => ?_
    subst hc
    exact h.rules.numbered.unfiled hcalls rfl u' (hinv.frames u' slot ptr hframe).1

/-- **Every move keeps the frames.** -/
theorem StationKept.move (h : StationKept held S) (rules : QueueRules api held) {mv : StationMove ι}
    (hprompted : Prompted api held S mv) (hapart : Apart S mv)
    (hlimit : (S.move api mv).clients.shared.1.counter ≤ 2 ^ 64) (hid : S.clients.shared.1.currentId ≠ 0)
    (hfresh : FreshOpens (sdkTrace (S.move api mv).clients.log)) : StationKept held (S.move api mv) := by
  cases mv with
  | client mv => exact h.client rules hprompted hapart hlimit hid hfresh
  | fill slot w => exact h.fill slot w
  | callback raw ptr byte =>
      exact ⟨h.rules, h.duties, fun view hview => (h.frames view hview).callback hprompted byte⟩
  | resume i hostTsNs outcome =>
      rcases S.resume_cases api i hostTsNs outcome with hsame | hsame | ⟨call, c, k, hcall, hrest, hsame⟩
      · rw [hsame]
        exact h
      · rw [hsame]
        exact h.exchange fun _ _ _ hkept => hkept.drop List.eraseIdx_subset
      · rw [hsame]
        refine h.exchange fun _ _ _ hkept => hkept.resume rules hcall hrest hostTsNs outcome
          fun call' hcall' => ?_
        exact List.mem_or_eq_of_mem_set hcall'

/-! ## Every schedule -/

/-- The log of the threads only grows. -/
theorem Station.log_move (api : VmbApi τ) (S : Station τ ι) (mv : StationMove ι) :
    ∃ new, (S.move api mv).clients.log = S.clients.log ++ new := by
  cases mv with
  | client mv => exact Pool.log_move (stepMachine api) clientSteps S.clients mv
  | fill slot w => exact ⟨[], (List.append_nil _).symm⟩
  | callback raw ptr byte => exact ⟨[], (List.append_nil _).symm⟩
  | resume i hostTsNs outcome =>
      rcases S.resume_cases api i hostTsNs outcome with hsame | hsame | ⟨call, c, k, -, -, hsame⟩ <;>
        exact ⟨[], (congrArg (fun S => S.clients.log) hsame).trans (List.append_nil _).symm⟩

/-- The counter says how many identifiers have been drawn. -/
def Station.Counted (S : Station τ ι) : Prop :=
  S.clients.shared.1.counter = 1 + ((register τ).draws S.clients.log).length

theorem Station.Counted.move (h : S.Counted) (api : VmbApi τ) (mv : StationMove ι) :
    (S.move api mv).Counted := by
  cases mv with
  | client mv => exact (register_obeys api).counter_move S.clients mv h
  | fill slot w => exact (S.clients.shared.1.fill_keeps slot w).1.trans h
  | callback raw ptr byte => exact h
  | resume i hostTsNs outcome =>
      rcases S.resume_cases api i hostTsNs outcome with hsame | hsame | ⟨call, c, k, -, -, hsame⟩ <;>
        rw [hsame] <;> exact h

theorem counted_run (api : VmbApi τ) (t : τ) (started : Bool) (moves : List (StationMove ι)) :
    ((station t started).run api moves).Counted := by
  induction moves using List.reverseRecOn with
  | nil => rfl
  | append_singleton moves mv ih =>
      rw [Station.run_append]
      exact ih.move api mv

section Runs

variable {t : τ}

theorem stationKept_run (rules : QueueRules api held) (started : Bool)
    (hnone : ∀ raw ptr, ¬ held t raw ptr) (moves : List (StationMove ι))
    (hok : Station.Along api (fun S mv => Prompted api held S mv ∧ Apart S mv) (station t started) moves)
    (hlimit : ((register τ).draws ((station t started).run api moves).clients.log).length < 2 ^ 64 - 1)
    (hfresh : FreshOpens (sdkTrace ((station t started).run api moves).clients.log)) :
    StationKept held ((station t started).run api moves) := by
  induction moves using List.reverseRecOn with
  | nil => exact StationKept.init t started hnone
  | append_singleton moves mv ih =>
      obtain ⟨hbefore, hprompted, hapart⟩ := Station.along_append.mp hok
      obtain ⟨new, hlog⟩ := Station.log_move api ((station t started).run api moves) mv
      have hcounter : Station.Counted _ := counted_run api t started (moves ++ [mv])
      rw [Station.run_append] at hlimit hfresh hcounter ⊢
      have hlimit' :
          ((register τ).draws ((station t started).run api moves).clients.log).length < 2 ^ 64 - 1 := by
        rw [hlog, Register.draws, List.filterMap_append, List.length_append] at hlimit
        exact Nat.lt_of_le_of_lt (Nat.le_add_right _ _) hlimit
      have hfresh' : FreshOpens (sdkTrace ((station t started).run api moves).clients.log) := by
        rw [hlog, sdkTrace, List.filterMap_append] at hfresh
        exact Conforms.of_append hfresh
      have hnow : Station.Counted _ := counted_run api t started moves
      unfold Station.Counted at hcounter hnow
      exact (ih hbefore hlimit' hfresh').move rules hprompted hapart (by omega)
        (currentId_ne_zero (by omega) (by omega)) hfresh

/-- **Frame contexts outlive their callbacks.** In every schedule in which the frames of two cameras are
never announced at one time, the context of every frame the SDK may complete is in the table, and so is that
of every frame a thread is about to queue and of every running trampoline, which follows no dangling pointer
and gives back its own frame only. -/
theorem frames_outlive (rules : QueueRules api held) (started : Bool)
    (hnone : ∀ raw ptr, ¬ held t raw ptr) (moves : List (StationMove ι))
    (hok : Station.Along api (fun S mv => Prompted api held S mv ∧ Apart S mv) (station t started) moves)
    {S : Station τ ι} (hS : S = (station t started).run api moves)
    (hlimit : ((register τ).draws S.clients.log).length < 2 ^ 64 - 1)
    (hfresh : FreshOpens (sdkTrace S.clients.log)) :
    (∀ raw ptr, held S.clients.shared.2 raw ptr → S.clients.shared.1.Alive ptr) ∧
      (∀ u raw ptr trampoline, S.clients.Calls u (.sdk (.vmbCaptureFrameQueue raw ptr trampoline)) →
        S.clients.shared.1.Alive ptr) ∧
      ∀ call ∈ S.calls, S.clients.shared.1.Alive call.framePtr ∧
        call.rest.CallsOnly (Sane call.cameraHandle call.framePtr) := by
  subst hS
  have hkept := stationKept_run rules started hnone moves hok hlimit hfresh
  obtain ⟨view, hview, -⟩ := hkept.rules.accounts
  have hframes := hkept.frames view hview
  refine ⟨fun raw ptr hp => hframes.alive (hframes.held raw ptr hp), fun u raw ptr trampoline hcalls => ?_,
    fun call hcall => ⟨hframes.alive (hframes.running call hcall), hframes.sane call hcall⟩⟩
  obtain ⟨hraw, -, hptr⟩ := hkept.rules.pre hview hcalls
  exact hframes.alive ⟨u, Or.inl hraw, hptr⟩

end Runs

/-! ## A capture -/

section Decidability

variable [∀ t raw ptr, Decidable (held t raw ptr)]

instance (S : Station τ ι) : ∀ mv, Decidable (Prompted api held S mv)
  | .callback cameraHandle framePtr _ =>
    inferInstanceAs (Decidable (held S.clients.shared.2 cameraHandle framePtr))
  | .client (.step t) =>
    inferInstanceAs (Decidable (∀ c ∈ S.clients.nextCall t, ∀ raw ∈ revokesFrom c,
      (∀ call ∈ S.calls, call.cameraHandle ≠ raw) ∧
        (api S.clients.shared.2 (.vmbFrameRevokeAll raw)).1 = (0 : Int32)))
  | .client (.invoke _ _) => isTrue trivial
  | .fill _ _ => isTrue trivial
  | .resume _ _ _ => isTrue trivial

/-- The frame an SDK call announces. -/
def frameAnnounced : Event VmbC → Option (VmbHandle × Nat)
  | ⟨.vmbFrameAnnounce raw ptr, _⟩ => some (raw, ptr)
  | _ => none

theorem onlyFramesOf_iff {raw : VmbHandle} {log : List (Event VmbC)} :
    (∀ e ∈ log, ∀ p ∈ frameAnnounced e, SdkAnnounced p.1 log p.2 → p.1 = raw) ↔
      OnlyFramesOf raw log := by
  constructor
  · intro h raw' ptr hannounced
    obtain ⟨e, he, hannounces⟩ := Since.exists_mem hannounced
    refine h e he (raw', ptr) ?_ hannounced
    unfold sdkAnnounces at hannounces
    split at hannounces
    · obtain ⟨rfl, rfl, -⟩ := of_decide_eq_true hannounces
      rfl
    · cases hannounces
  · exact fun h e _ p _ hannounced => h p.1 p.2 hannounced

instance (raw : VmbHandle) (log : List (Event VmbC)) : Decidable (OnlyFramesOf raw log) :=
  haveI : ∀ raw ptr, Decidable (SdkAnnounced raw log ptr) := fun _ _ =>
    inferInstanceAs (Decidable (Since _ _ _))
  decidable_of_iff _ onlyFramesOf_iff

instance [Fintype ι] (S : Station τ ι) : ∀ mv, Decidable (Apart S mv)
  | .client (.step t) =>
    inferInstanceAs (Decidable (∀ c ∈ S.clients.nextCall t,
      (∀ raw ∈ announcesTo c, OnlyFramesOf raw (sdkTrace S.clients.log) ∧
        ∀ u, ∀ c' ∈ S.clients.nextCall u, clearsTable c' = false) ∧
      ∀ raw ∈ revokesFrom c, OnlyFramesOf raw (sdkTrace S.clients.log)))
  | .client (.invoke _ _) => isTrue trivial
  | .callback _ _ _ => isTrue trivial
  | .fill _ _ => isTrue trivial
  | .resume _ _ _ => isTrue trivial

noncomputable instance decidableAlong {ok : Station τ ι → StationMove ι → Prop}
    [∀ S mv, Decidable (ok S mv)] :
    ∀ (S : Station τ ι) (moves : List (StationMove ι)), Decidable (Station.Along api ok S moves)
  | _, [] => isTrue trivial
  | S, mv :: moves =>
    haveI : Decidable (Station.Along api ok (S.move api mv) moves) := decidableAlong _ moves
    inferInstanceAs (Decidable (ok S mv ∧ Station.Along api ok (S.move api mv) moves))

end Decidability

/-- An SDK that holds the frames it has been given until their camera is revoked. -/
def holdingApi : VmbApi (Nat × List (VmbHandle × Nat)) := fun t c =>
  match c with
  | .vmbCaptureFrameQueue raw ptr _ => ((0 : Int32), (t.1, t.2 ++ [(raw, ptr)]))
  | .vmbFrameRevokeAll raw => ((0 : Int32), (t.1, t.2.filter fun p => p.1 ≠ raw))
  | c => ((mockApi t.1 c).1, ((mockApi t.1 c).2, t.2))

theorem holdingApi_rules : QueueRules holdingApi fun t raw ptr => (raw, ptr) ∈ t.2 where
  queue t raw ptr _ raw' ptr' h := by
    rcases List.mem_append.mp h with h | h
    · exact Or.inl h
    · exact Or.inr (Prod.mk.inj (List.mem_singleton.mp h))
  revoke t raw ptr _ h := by
    have hne := (List.mem_filter.mp h).2
    simp at hne
  other t c raw ptr hc h := by
    cases c
    case vmbCaptureFrameQueue raw' ptr' trampoline => exact absurd rfl (hc raw' ptr' trampoline)
    case vmbFrameRevokeAll raw' => exact (List.mem_filter.mp h).1
    all_goals exact h

/-- A thread opens a camera and captures with one frame. -/
def captureSingle : List (Move Bool Action) :=
  .invoke false (.openCamera "DEV_1") :: List.replicate 4 (.step false) ++
    .invoke false (.startCapture 1 ⟨7⟩) :: List.replicate 18 (.step false)

/-- It ends the capture, and another thread opens a camera. -/
def endAndOpen : List (Move Bool Action) :=
  .invoke false .stopCapture :: .invoke true (.openCamera "DEV_2") ::
    (List.replicate 6 [.step false, .step true]).flatten

/-- The SDK completes the frame, and the trampoline is running while the threads go on. -/
def endDuringCallback : List (StationMove Bool) :=
  captureSingle.map .client ++ [.fill ⟨3⟩ ⟨0, 1, 4096, 0, 640, 480⟩, .callback 5 1025 fun _ => 0] ++
    endAndOpen.map .client

noncomputable abbrev endedDuringCallback : Station (Nat × List (VmbHandle × Nat)) Bool :=
  (station (5, []) false).run holdingApi endDuringCallback

theorem frames_outlive_endDuringCallback :
    (5, 1025) ∈ endedDuringCallback.clients.shared.2.2 ∧ endedDuringCallback.calls.length = 1 ∧
      (sdkTrace endedDuringCallback.clients.log).length = 10 ∧
      (∀ raw ptr, (raw, ptr) ∈ endedDuringCallback.clients.shared.2.2 →
        endedDuringCallback.clients.shared.1.Alive ptr) ∧
      ∀ call ∈ endedDuringCallback.calls, endedDuringCallback.clients.shared.1.Alive call.framePtr ∧
        call.rest.CallsOnly (Sane call.cameraHandle call.framePtr) := by
  obtain ⟨hheld, -, hcalls⟩ := frames_outlive holdingApi_rules false (t := (5, []))
    (fun _ _ => List.not_mem_nil) endDuringCallback (by decide +kernel) rfl (by decide +kernel)
    (freshOpens_of_nodup (by decide +kernel))
  exact ⟨by decide +kernel, by decide +kernel, by decide +kernel, hheld, hcalls⟩

end Vmb.Ffi

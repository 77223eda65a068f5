/-
# Vmb.Ffi.RawHandles -- raw camera handles under interleaving

A raw handle comes from `VmbCameraOpen` into the hand of the thread that opens the camera, goes into
the table `cameras`, is taken out by the thread that closes the camera, and goes back to the SDK with
`VmbCameraClose`. It is a token: whatever the threads call, with whatever handles, and however their
atomic steps interleave, it is in one place at a time. So every raw handle is closed once and while it
is open, however many threads close the camera at the same time, and when all calls have returned the
table holds exactly the handles that are open (`closed_once`).

The SDK has to promise that `VmbCameraOpen` returns no handle that is open, and the counter must not
have wrapped.
-/
import Vmb.Ffi.Footprint
import Vmb.Ffi.Handles
import Vmb.Ffi.Identifiers
import Vmb.Lib.Tokens

namespace Vmb.Ffi

open Vmb.Lib Vmb.Core Vmb.Sdk

variable {ι τ : Type} [DecidableEq ι]

/-! ## The handle in the hand of a thread -/

/-- The SDK call of a step. -/
def sdkEvent : Event Steps → Option (Event VmbC)
  | ⟨.sdk c, r⟩ => some ⟨c, r⟩
  | ⟨.access _, _⟩ => none

/-- The SDK calls of all threads, in order. -/
def sdkTrace (log : List (ι × Event Steps)) : List (Event VmbC) :=
  log.filterMap fun e => sdkEvent e.2

omit [DecidableEq ι] in
theorem sdkTrace_append (log : List (ι × Event Steps)) (t : ι) (e : Event Steps) :
    sdkTrace (log ++ [(t, e)]) = sdkTrace log ++ (sdkEvent e).toList := by
  rw [sdkTrace, List.filterMap_append]
  cases h : sdkEvent e with
  | none => simp [sdkTrace, h]
  | some x => simp [sdkTrace, h]

/-- A thread holds one raw handle at most: between the SDK call that opens it and the table, and
between the table and the SDK call that closes it. -/
def rawInHand : Contract Steps (Option VmbHandle) where
  pre v c :=
    match c with
    | .sdk (.vmbCameraOpen _ _) => v = none
    | .access (.insertCamera _ raw) => v = some raw
    | .access (.removeCamera _) => v = none
    | .sdk (.vmbCameraClose raw) => v = some raw
    | _ => True
  next v c r :=
    match c, r with
    | .sdk (.vmbCameraOpen _ _), a => if a.1 = 0 then some a.2 else none
    | .access (.insertCamera _ _), _ => none
    | .access (.removeCamera _), found => found
    | .sdk (.vmbCameraClose _), _ => none
    | _, _ => v

/-- A number that has been drawn is not zero. -/
def Unwrapped : (c : AtomicStep) → c.Resp → Prop
  | .access .fetchAdd, id => id ≠ (0 : UInt64)
  | _, _ => True

theorem openCamera_rawInHand (id : String) :
    (Atomic.openCamera id).Ensures rawInHand Unwrapped (fun _ v => v = none) none := by
  unfold Atomic.openCamera Atomic.nextId
  cases CString.new (bytes id) with
  | none => rfl
  | some cId =>
      refine ⟨rfl, fun ⟨rc, raw⟩ _ => ?_⟩
      have hnext : rawInHand.next none (.sdk (.vmbCameraOpen cId vmbAccessModeFull)) (rc, raw) =
          if rc = 0 then some raw else none := rfl
      rw [hnext]
      dsimp only [Prog.bind]
      cases hcheck : check rc with
      | error e => exact if_neg (FfiState.check_error hcheck).1
      | ok _ =>
          rw [if_pos (FfiState.check_ok hcheck)]
          refine ⟨trivial, fun n hn => ?_⟩
          have hn : n ≠ 0 := hn
          dsimp only [Prog.bind]
          rw [dif_pos hn]
          exact ⟨rfl, fun _ _ => rfl⟩

theorem closeCamera_rawInHand (h : CameraHandle) :
    (Atomic.closeCamera h).Ensures rawInHand Unwrapped (fun _ v => v = none) none := by
  refine ⟨rfl, fun found _ => ?_⟩
  cases found with
  | none => rfl
  | some raw => exact ⟨rfl, fun _ _ => rfl⟩

/-- **A method hands on every raw handle it gets.** -/
theorem steps_rawInHand (c : PortCall) :
    (steps c).Ensures rawInHand Unwrapped (fun _ v => v = none) none := by
  cases c with
  | openCamera id => exact openCamera_rawInHand id
  | closeCamera h => exact closeCamera_rawInHand h
  | _ =>
      refine (steps_quiet _ fun step hstep => ?_).ensures
      cases hstep <;> exact ⟨trivial, fun _ => rfl⟩

/-! ## Every interleaving -/

/-- Where the raw handles are that are open. -/
def rawPlaces {X R : Type} (P : Pool Steps (FfiState × τ) ι X R) :
    Places (ι ⊕ CameraHandle) VmbHandle :=
  .split (SdkOpen (sdkTrace P.log)) (Pool.view rawInHand none P.log) fun h =>
    P.shared.1.cameras.lookup h

/-- A successful `VmbCameraOpen` returns a raw handle that is not open. -/
def FreshOpens (log : List (Event VmbC)) : Prop :=
  Conforms (fun pre e => ∀ raw, sdkOpens raw e = true → ¬ SdkOpen pre raw) log

/-- Opens are fresh if no raw handle is opened twice. -/
theorem freshOpens_of_nodup {log : List (Event VmbC)} (h : (log.filterMap openedBy).Nodup) :
    FreshOpens log := by
  rintro l₁ e l₂ rfl raw hopens hopen
  obtain ⟨x, hx, hopensx⟩ := hopen.exists_mem
  rw [List.filterMap_append, List.filterMap_cons_some (openedBy_eq_some hopens)] at h
  exact (List.nodup_append.mp h).2.2 raw (List.mem_filterMap.mpr ⟨x, hx, openedBy_eq_some hopensx⟩)
    raw List.mem_cons_self rfl

/-- Only a raw handle that is open is closed. -/
def ClosesOpen (log : List (Event VmbC)) : Prop :=
  Conforms (fun pre e => ∀ raw, sdkCloses raw e = true → SdkOpen pre raw) log

theorem sdkOpen_append {log : List (Event VmbC)} {e : Event VmbC} {raw : VmbHandle} :
    SdkOpen (log ++ [e]) raw ↔
      sdkOpens raw e = true ∨ SdkOpen log raw ∧ ¬ sdkCloses raw e = true := since_append

theorem sdkOpen_append_other {log : List (Event VmbC)} {e : Event VmbC} {raw : VmbHandle}
    (hopens : sdkOpens raw e = false) (hcloses : sdkCloses raw e = false) :
    SdkOpen (log ++ [e]) raw ↔ SdkOpen log raw := by
  rw [sdkOpen_append, hopens, hcloses]
  simp

variable {X R : Type} {P P' : Pool Steps (FfiState × τ) ι X R} {t : ι}

/-- A step that is not about raw handles. -/
theorem rawPlaces_keep (hview : Pool.view rawInHand none P'.log = Pool.view rawInHand none P.log)
    (hcameras : P'.shared.1.cameras = P.shared.1.cameras)
    (hlive : ∀ raw, SdkOpen (sdkTrace P'.log) raw ↔ SdkOpen (sdkTrace P.log) raw) :
    Places.Step True (rawPlaces P) (rawPlaces P') := by
  refine .keep hlive ?_
  unfold rawPlaces
  rw [hview, hcameras]
  rfl

/-- **What an SDK call does with the raw handles.** -/
theorem rawPlaces_sdk {c : SdkCall} {r : c.Resp}
    (hpre : rawInHand.pre (Pool.view rawInHand none P.log t) (.sdk c))
    (hcameras : P'.shared.1.cameras = P.shared.1.cameras)
    (hlog : P'.log = P.log ++ [(t, ⟨.sdk c, r⟩)]) (hfresh : FreshOpens (sdkTrace P'.log)) :
    Places.Step True (rawPlaces P) (rawPlaces P') := by
  have hview := Pool.view_append rawInHand none P.log t ⟨.sdk c, r⟩
  rw [← hlog] at hview
  have htrace : sdkTrace P'.log = sdkTrace P.log ++ [⟨c, r⟩] := by
    rw [hlog]
    exact sdkTrace_append P.log t ⟨.sdk c, r⟩
  -- a call that neither opens nor closes
  have hkeep : rawInHand.next (Pool.view rawInHand none P.log t) (.sdk c) r =
      Pool.view rawInHand none P.log t → (∀ raw, sdkOpens raw ⟨c, r⟩ = false) →
      (∀ raw, sdkCloses raw ⟨c, r⟩ = false) → Places.Step True (rawPlaces P) (rawPlaces P') := by
    intro hnext hopens hcloses
    refine rawPlaces_keep ?_ hcameras fun raw => ?_
    · rw [hview, hnext, Function.update_eq_self]
    · rw [htrace]
      exact sdkOpen_append_other (hopens raw) (hcloses raw)
  cases c
  case vmbCameraOpen cId mode =>
    rcases r with ⟨rc, raw⟩
    have hempty : Pool.view rawInHand none P.log t = none := hpre
    by_cases hrc : rc = 0
    · have hfresh : ¬ SdkOpen (sdkTrace P.log) raw := by
        rw [htrace] at hfresh
        exact (conforms_append.mp hfresh).2 raw (by simp [sdkOpens, hrc])
      have hnext : rawInHand.next none (.sdk (.vmbCameraOpen cId mode)) (rc, raw) = some raw :=
        if_pos hrc
      rw [hempty, hnext] at hview
      unfold rawPlaces
      rw [hview, hcameras]
      refine .received hfresh (fun _ => hempty) fun raw' => ?_
      have hopens : sdkOpens raw' ⟨.vmbCameraOpen cId mode, (rc, raw)⟩ = true ↔ raw' = raw := by
        simp [sdkOpens, hrc, eq_comm]
      have hcloses : sdkCloses raw' ⟨.vmbCameraOpen cId mode, (rc, raw)⟩ = false := rfl
      rw [htrace, sdkOpen_append, hopens, hcloses, or_comm]
      simp
    · refine hkeep ?_ (fun raw' => by simp [sdkOpens, hrc]) fun raw' => rfl
      rw [hempty]
      exact if_neg hrc
  case vmbCameraClose raw =>
    have hheld : Pool.view rawInHand none P.log t = some raw := hpre
    unfold rawPlaces
    rw [hview, hcameras]
    refine .returned hheld fun raw' => ?_
    have hopens : sdkOpens raw' ⟨.vmbCameraClose raw, r⟩ = false := rfl
    have hcloses : sdkCloses raw' ⟨.vmbCameraClose raw, r⟩ = true ↔ raw = raw' := by
      simp [sdkCloses]
    rw [htrace, sdkOpen_append, hopens, hcloses, @eq_comm _ raw raw']
    simp
  all_goals exact hkeep rfl (fun _ => rfl) fun _ => rfl

/-- **What an access does with the raw handles.** -/
theorem rawPlaces_access {c : Access}
    (hpre : rawInHand.pre (Pool.view rawInHand none P.log t) (.access c))
    (hshared : P'.shared.1 = (P.shared.1.access c).2)
    (hlog : P'.log = P.log ++ [(t, ⟨.access c, (P.shared.1.access c).1⟩)])
    (habsent : ∀ h raw, c = .insertCamera h raw → h ∉ P.shared.1.cameras) :
    Places.Step True (rawPlaces P) (rawPlaces P') := by
  have hview := Pool.view_append rawInHand none P.log t ⟨.access c, (P.shared.1.access c).1⟩
  rw [← hlog] at hview
  have htrace : sdkTrace P'.log = sdkTrace P.log := by
    rw [hlog]
    exact (sdkTrace_append P.log t ⟨.access c, _⟩).trans (List.append_nil _)
  have hlive : ∀ raw, SdkOpen (sdkTrace P'.log) raw ↔ SdkOpen (sdkTrace P.log) raw := by
    rw [htrace]
    exact fun _ => Iff.rfl
  have hkeep : rawInHand.next (Pool.view rawInHand none P.log t) (.access c)
      (P.shared.1.access c).1 = Pool.view rawInHand none P.log t →
      (P.shared.1.access c).2.cameras = P.shared.1.cameras →
      Places.Step True (rawPlaces P) (rawPlaces P') := by
    intro hnext hcameras
    refine rawPlaces_keep ?_ (hshared ▸ hcameras) hlive
    rw [hview, hnext, Function.update_eq_self]
  cases c
  case insertCamera h raw =>
    have hheld : Pool.view rawInHand none P.log t = some raw := hpre
    have hnone := Finmap.lookup_eq_none.mpr (habsent h raw rfl)
    have htable : (fun h' => P'.shared.1.cameras.lookup h') =
        Function.update (fun h' => P.shared.1.cameras.lookup h') h (some raw) := by
      rw [hshared]
      exact lookup_insert_eq_update _ _ _
    unfold rawPlaces
    rw [hview, htable]
    exact .stored hheld (fun _ => hnone) hlive
  case removeCamera h =>
    have hempty : Pool.view rawInHand none P.log t = none := hpre
    have htable : (fun h' => P'.shared.1.cameras.lookup h') =
        Function.update (fun h' => P.shared.1.cameras.lookup h') h none := by
      rw [hshared]
      exact lookup_erase_eq_update _ _
    rcases hlookup : P.shared.1.cameras.lookup h with - | raw
    · refine hkeep (hlookup.trans hempty.symm) ?_
      exact erase_of_lookup_none hlookup
    · have hnext : rawInHand.next (Pool.view rawInHand none P.log t) (.access (.removeCamera h))
          (P.shared.1.access (.removeCamera h)).1 = some raw := hlookup
      unfold rawPlaces
      rw [hview, hnext, htable]
      exact .taken hlookup (fun _ => hempty) hlive
  case patchFrame slot callback =>
    refine hkeep rfl ?_
    dsimp only [FfiState.access]
    split <;> rfl
  all_goals exact hkeep rfl rfl

/-- Every thread hands on what it holds, every open raw handle is in one place, and none has been closed
but while it was open. -/
structure RawKept (P : Pool Steps (FfiState × τ) ι X R) : Prop where
  sound : P.Sound rawInHand none Unwrapped (fun _ v => v = none) fun _ => True
  placed : (rawPlaces P).Placed True
  closes : ClosesOpen (sdkTrace P.log)

theorem RawKept.init {s : FfiState} {t : τ} {x : X} (hcameras : s.cameras = ∅) :
    RawKept (Pool.init (s, t) x : Pool Steps (FfiState × τ) ι X R) where
  sound := Pool.sound_init rfl
  placed := by
    refine .empty (fun raw => since_nil) fun a => ?_
    rcases a with u | h
    · rfl
    · show s.cameras.lookup h = none
      rw [hcameras]
      exact Finmap.lookup_empty h
  closes := conforms_nil

/-- A thread closes what it has taken out of the table. -/
theorem RawKept.closes_step (h : RawKept P) {c : SdkCall} {r : c.Resp} (hcalls : P.Calls t (.sdk c)) :
    ClosesOpen (sdkTrace P.log ++ [⟨c, r⟩]) := by
  refine conforms_append.mpr ⟨h.closes, fun raw hcloses => ?_⟩
  cases c
  case vmbCameraClose raw' =>
    obtain rfl : raw' = raw := by simpa [sdkCloses] using hcloses
    exact h.placed.live (Sum.inl t) raw' (h.sound.pre hcalls)
  all_goals cases hcloses

theorem issuing_rawInHand (c : PortCall) (ids : List Ident) :
    (issuing steps c ids).Ensures rawInHand Unwrapped (fun _ v => v = none) none :=
  Prog.ensures_bind.mpr ((steps_rawInHand c).mono fun _ _ hv => hv)

/-- **A move keeps the raw handles in their places**, if the operations hand on what they get. -/
theorem RawKept.move {A : Type} {perform : A → X → Prog Steps (R × X)} (h : RawKept P) (api : VmbApi τ)
    (hperform : ∀ a x, (perform a x).Ensures rawInHand Unwrapped (fun _ v => v = none) none)
    {mv : Move ι A} (hid : P.shared.1.currentId ≠ 0)
    (hfresh : FreshOpens (sdkTrace (P.move (stepMachine api) perform mv).log))
    (habsent : ∀ t c k, mv = .step t → P.Calls t c → (register τ).kind c = .file k →
      ¬ P.shared.1.Has k) :
    RawKept (P.move (stepMachine api) perform mv) := by
  have hsound : (P.move (stepMachine api) perform mv).Sound rawInHand none Unwrapped
      (fun _ v => v = none) fun _ => True := by
    refine h.sound.move mv (fun t a x v _ hv => ?_) fun t c _ _ => ?_
    · subst hv
      exact (hperform a x).mono fun r v hv => ⟨hv, trivial⟩
    · rcases c with c | c
      · trivial
      · cases c
        case fetchAdd => exact hid
        all_goals trivial
  rcases P.move_cases (stepMachine api) perform mv with
    ⟨hshared, hlog⟩ | ⟨t, c, rfl, hcalls, hshared, hlog⟩
  · refine ⟨hsound, ?_, hlog ▸ h.closes⟩
    have hplaces : rawPlaces (P.move (stepMachine api) perform mv) = rawPlaces P := by
      unfold rawPlaces
      rw [hshared, hlog]
    rw [hplaces]
    exact h.placed
  · have hpre := h.sound.pre hcalls
    cases c with
    | sdk c =>
        refine ⟨hsound, h.placed.step (rawPlaces_sdk hpre ?_ hlog hfresh), ?_⟩
        · rw [hshared]
          rfl
        · rw [hlog, sdkTrace_append]
          exact h.closes_step hcalls
    | access c =>
        refine ⟨hsound, h.placed.step (rawPlaces_access hpre ?_ hlog fun h' raw hc => ?_), ?_⟩
        · rw [hshared]
          rfl
        · subst hc
          exact habsent t _ (.camera h') rfl hcalls rfl
        · rw [hlog, sdkTrace_append]
          simpa [sdkEvent] using h.closes

/-- What comes of it: no two handles of the table stand for one raw handle, and when every thread is at
rest the table holds exactly the raw handles that are open. -/
theorem RawKept.exact (h : RawKept P) :
    (∀ h₁ h₂ raw, P.shared.1.cameras.lookup h₁ = some raw → P.shared.1.cameras.lookup h₂ = some raw →
      h₁ = h₂) ∧
    ((∀ u, (P.threads u).running = none) →
      ∀ raw, SdkOpen (sdkTrace P.log) raw ↔ ∃ h, P.shared.1.cameras.lookup h = some raw) := by
  refine ⟨fun h₁ h₂ raw hh hh' => ?_, fun hrest raw => ⟨fun hopen => ?_, ?_⟩⟩
  · exact Sum.inr.inj (h.placed.unique (Sum.inr h₁) (Sum.inr h₂) raw hh hh')
  · obtain ⟨a, ha⟩ := h.placed.somewhere trivial raw hopen
    rcases a with u | h₁
    · -- a thread at rest has nothing in its hand
      have hnone := h.sound.resting u (hrest u)
      have hsome : Pool.view rawInHand none P.log u = some raw := ha
      rw [hnone] at hsome
      cases hsome
    · exact ⟨h₁, ha⟩
  · rintro ⟨h₁, hh⟩
    exact h.placed.live (Sum.inr h₁) raw hh

/-- The counter has not wrapped. -/
theorem currentId_ne_zero {s : FfiState} (hpos : 0 < s.counter) (hlt : s.counter < 2 ^ 64) :
    s.currentId ≠ 0 := by
  have hid : s.currentId.toNat = s.counter := UInt64.toNat_ofNat_of_lt hlt
  intro hzero
  rw [hzero, UInt64.toNat_zero] at hid
  omega

/-! ## Runs -/

theorem issuing_files (c : PortCall) (ids : List Ident) (v : Register.View Ident) :
    (issuing steps c ids).Meets (register τ).discipline (fun _ _ => True) v :=
  Prog.meets_bind.mpr ((steps_files c v).mono fun _ _ _ => trivial)

section Runs

variable (api : VmbApi τ) (started : Bool) (t : τ)

/-- **Every schedule** that draws fewer than `2^64 - 1` numbers, over an SDK whose opens are fresh, if the
operations hand on the raw handles they get and file what they issue. -/
theorem RawKept.run {A : Type} {perform : A → X → Prog Steps (R × X)}
    (hraw : ∀ a x, (perform a x).Ensures rawInHand Unwrapped (fun _ v => v = none) none)
    (hfiles : ∀ a x v, (perform a x).Meets (register τ).discipline (fun _ _ => True) v) (x : X)
    (moves : List (Move ι A)) {P : Pool Steps (FfiState × τ) ι X R}
    (hrun : (Pool.init ({ FfiState.new with started := started }, t) x).run (stepMachine api) perform
      moves = P)
    (hlimit : ((register τ).draws P.log).length < 2 ^ 64 - 1) (hfresh : FreshOpens (sdkTrace P.log)) :
    Numbered (register τ) 1 P ∧ RawKept P := by
  have hcounter : P.shared.1.counter = 1 + ((register τ).draws P.log).length := by
    rw [← hrun]
    exact (register_obeys api).counter_run _ moves rfl
  induction moves using List.reverseRecOn generalizing P with
  | nil =>
      subst hrun
      have hinit := Numbered.init (D := register τ) (s := ({ FfiState.new with started := started }, t))
        (x := x) (R := R) (ι := ι) fun k => not_has_new
      exact ⟨hinit, RawKept.init rfl⟩
  | append_singleton moves mv ih =>
      rw [Pool.run_append] at hrun
      subst hrun
      generalize hbefore : (Pool.init ({ FfiState.new with started := started }, t) x).run
        (stepMachine api) perform moves = B at *
      obtain ⟨new, hlog⟩ := Pool.log_move (stepMachine api) perform B mv
      have hlimit' : ((register τ).draws B.log).length < 2 ^ 64 - 1 := by
        rw [hlog, Register.draws, List.filterMap_append, List.length_append] at hlimit
        exact Nat.lt_of_le_of_lt (Nat.le_add_right _ _) hlimit
      have hfresh' : FreshOpens (sdkTrace B.log) := by
        rw [hlog, sdkTrace, List.filterMap_append] at hfresh
        exact Conforms.of_append hfresh
      have hcounter' : B.shared.1.counter = 1 + ((register τ).draws B.log).length := by
        rw [← hbefore]
        exact (register_obeys api).counter_run _ moves rfl
      obtain ⟨hnumbered, hkept⟩ := ih rfl hlimit' hfresh' hcounter'
      refine ⟨hnumbered.move (register_obeys api) hfiles mv ?_, hkept.move api hraw
        (currentId_ne_zero (by omega) (by omega)) hfresh fun u c k _ hcalls hkind =>
          hnumbered.absent (K := Ident) hcalls hkind⟩
      show (B.move (stepMachine api) perform mv).shared.1.counter ≤ 2 ^ 64
      omega

/-- **A raw handle is closed once, and while it is open**, however the calls of any threads interleave.
No two handles of the table stand for one raw handle, and when every call has returned the table holds
exactly the raw handles that are open. -/
theorem closed_once (moves : List (Move ι PortCall))
    (hlimit : ((register τ).draws (interleaved api started t moves).log).length < 2 ^ 64 - 1)
    (hfresh : FreshOpens (sdkTrace (interleaved api started t moves).log)) :
    ClosesOpen (sdkTrace (interleaved api started t moves).log) ∧
      (∀ h h' raw, (interleaved api started t moves).shared.1.cameras.lookup h = some raw →
        (interleaved api started t moves).shared.1.cameras.lookup h' = some raw → h = h') ∧
      ((∀ u, ((interleaved api started t moves).threads u).running = none) →
        ∀ raw, SdkOpen (sdkTrace (interleaved api started t moves).log) raw ↔
          ∃ h, (interleaved api started t moves).shared.1.cameras.lookup h = some raw) := by
  obtain ⟨-, hkept⟩ := RawKept.run api started t issuing_rawInHand issuing_files [] moves rfl hlimit hfresh
  exact ⟨hkept.closes, hkept.exact⟩

end Runs

/-- Two threads open a camera each, and then both close the first one at the same time. -/
def closingTwice : List (Move Bool PortCall) :=
  [.invoke false (.openCamera "DEV_1"), .invoke true (.openCamera "DEV_2")] ++
    (List.replicate 4 [.step false, .step true]).flatten ++
    [.invoke false (.closeCamera ⟨⟨1, nonZero_one⟩⟩), .invoke true (.closeCamera ⟨⟨1, nonZero_one⟩⟩)] ++
    (List.replicate 3 [.step false, .step true]).flatten

theorem closed_once_closingTwice :
    ClosesOpen (sdkTrace (interleaved mockApi false 5 closingTwice).log) ∧
      ∀ raw, SdkOpen (sdkTrace (interleaved mockApi false 5 closingTwice).log) raw ↔
        ∃ h, (interleaved mockApi false 5 closingTwice).shared.1.cameras.lookup h = some raw := by
  have hfresh : FreshOpens (sdkTrace (interleaved mockApi false 5 closingTwice).log) :=
    freshOpens_of_nodup (by decide +kernel)
  obtain ⟨hcloses, -, hrest⟩ := closed_once mockApi false 5 closingTwice (by decide +kernel) hfresh
  exact ⟨hcloses, hrest fun u => (by cases u <;> rfl)⟩

end Vmb.Ffi

/-
# Vmb.Ffi.Owners -- cameras of different threads at one SDK

Any number of threads own an object of the domain layer each and use it over one `VmbFfiRuntime`, and
the atomic steps of the adapter interleave in any way. `OwnersInv` says that what the steps of a thread
have made of its camera is what the SDK has been told about it: the raw handle is open, belongs to no
other thread, and has the capture, the acquisition and the frames of the view. Every step keeps it
(`OwnersInv.sdk`, `OwnersInv.access`), so the SDK calls of all threads together keep the rules of the
SDK (`sdk_rules_kept`), and the tables answer every thread as it counts on.

The SDK has to promise that `VmbCameraOpen` returns no raw handle that is open, and the counter must not
have wrapped. A capture, an acquisition and the frames of a camera are over once the call that ends them
has been made, whatever code it returned.
-/
import Vmb.Ffi.RawHandles
import Vmb.Ffi.SdkProtocol

namespace Vmb.Ffi

open Vmb.Lib Vmb.Core Vmb.Sdk

variable {ι τ : Type}

/-! ## The account of one raw handle -/

/-- The raw handle of the camera a call is about. -/
def rawOf : SdkCall → Option VmbHandle
  | .vmbCameraClose raw => some raw
  | .vmbSettingsLoad raw _ => some raw
  | .vmbFeatureCommandRun raw _ => some raw
  | .vmbPayloadSizeGet raw => some raw
  | .vmbFrameAnnounce raw _ => some raw
  | .vmbFrameRevokeAll raw => some raw
  | .vmbCaptureStart raw => some raw
  | .vmbCaptureEnd raw => some raw
  | .vmbCaptureQueueFlush raw => some raw
  | .vmbCaptureFrameQueue raw _ _ => some raw
  | _ => none

section RawOf

variable {raw : VmbHandle} {e : Event VmbC}

theorem sdkStartsCapture_rawOf (he : sdkStartsCapture raw e = true) : rawOf e.call = some raw := by
  unfold sdkStartsCapture at he
  split at he
  · exact congrArg some (of_decide_eq_true he).1
  · cases he

theorem sdkEndsCapture_rawOf (he : sdkEndsCapture raw e = true) : rawOf e.call = some raw := by
  unfold sdkEndsCapture at he
  split at he
  · exact congrArg some (of_decide_eq_true he)
  · cases he

theorem sdkStartsAcquisition_rawOf (he : sdkStartsAcquisition raw e = true) : rawOf e.call = some raw := by
  unfold sdkStartsAcquisition at he
  split at he
  · exact congrArg some (of_decide_eq_true he).1
  · cases he

theorem sdkStopsAcquisition_rawOf (he : sdkStopsAcquisition raw e = true) : rawOf e.call = some raw := by
  unfold sdkStopsAcquisition at he
  split at he
  · exact congrArg some (of_decide_eq_true he).1
  · cases he

theorem sdkAnnounces_rawOf {ptr : Nat} (he : sdkAnnounces raw ptr e = true) : rawOf e.call = some raw := by
  unfold sdkAnnounces at he
  split at he
  · exact congrArg some (of_decide_eq_true he).1
  · cases he

theorem sdkRevokes_rawOf (he : sdkRevokes raw e = true) : rawOf e.call = some raw := by
  unfold sdkRevokes at he
  split at he
  · exact congrArg some (of_decide_eq_true he)
  · cases he

theorem sdkCloses_rawOf (he : sdkCloses raw e = true) : rawOf e.call = some raw := by
  unfold sdkCloses at he
  split at he
  · exact congrArg some (of_decide_eq_true he)
  · cases he

/-- An event that has nothing to do with it keeps a past-time property as it is. -/
theorem since_other {log : List (Event VmbC)} {p q : Event VmbC → Bool} {A : Prop}
    (hp : p e = true → A) (hq : q e = true → A) (hA : ¬ A) :
    Since (p ·) (q ·) (log ++ [e]) ↔ Since (p ·) (q ·) log := by
  rw [since_append]
  constructor
  · rintro (h | ⟨h, -⟩)
    · exact absurd (hp h) hA
    · exact h
  · exact fun h => Or.inr ⟨h, fun he => hA (hq he)⟩

end RawOf

/-- The SDK calls say of the raw handle what the view says of its camera. -/
structure Account (log : List (Event VmbC)) (raw : VmbHandle) (w : CameraView) : Prop where
  capturing : SdkCapturing raw log ↔ w.capturing = true
  acquiring : SdkAcquiring raw log → w.acquiring = true
  announced : ∀ ptr, SdkAnnounced raw log ptr ↔ w.Announced ptr

variable {log : List (Event VmbC)} {raw : VmbHandle} {w w' : CameraView} {c : SdkCall} {r : c.Resp}

theorem Account.congr (h : Account log raw w) (hcapturing : w'.capturing = w.capturing)
    (hacquiring : w'.acquiring = w.acquiring) (hannounced : ∀ ptr, w'.Announced ptr ↔ w.Announced ptr) :
    Account log raw w' where
  capturing := by rw [hcapturing]; exact h.capturing
  acquiring := by rw [hacquiring]; exact h.acquiring
  announced ptr := (h.announced ptr).trans (hannounced ptr).symm

/-- A call about another raw handle, or about none. -/
theorem Account.other (h : Account log raw w) (hc : rawOf c ≠ some raw) :
    Account (log ++ [⟨c, r⟩]) raw w where
  capturing := (since_other sdkStartsCapture_rawOf sdkEndsCapture_rawOf hc).trans h.capturing
  acquiring hlater :=
    h.acquiring ((since_other sdkStartsAcquisition_rawOf sdkStopsAcquisition_rawOf hc).mp hlater)
  announced ptr := (since_other sdkAnnounces_rawOf sdkRevokes_rawOf hc).trans (h.announced ptr)

theorem SdkOpen.other (h : SdkOpen log raw) (hc : rawOf c ≠ some raw) :
    SdkOpen (log ++ [⟨c, r⟩]) raw :=
  sdkOpen_append.mpr (Or.inr ⟨h, fun he => hc (sdkCloses_rawOf he)⟩)

/-- **A call about the raw handle of a view is allowed.** -/
theorem Account.allowed (h : Account log raw w) (hopen : SdkOpen log raw) (hraw : rawOf c = some raw)
    (hpre : atSdk.pre w (.sdk c)) : SdkAllowedCall log c := by
  have hidle : w.capturing = false → ¬ SdkCapturing raw log := fun hw hcapturing => by
    rw [h.capturing, hw] at hcapturing
    cases hcapturing
  have hstopped : w.acquiring = false → ¬ SdkAcquiring raw log := fun hw hacquiring => by
    have hacquiring := h.acquiring hacquiring
    rw [hw] at hacquiring
    cases hacquiring
  cases c
  case vmbCameraClose =>
    cases hraw
    have hw : w = { hand := some raw } := hpre
    subst hw
    refine ⟨hopen, hidle rfl, hstopped rfl, fun ptr hannounced => ?_⟩
    rcases (h.announced ptr).mp hannounced with hptr | hptr
    · cases hptr
    · exact absurd hptr List.not_mem_nil
  case vmbSettingsLoad =>
    cases hraw
    exact hopen
  case vmbFeatureCommandRun =>
    cases hraw
    exact ⟨hopen, fun hstart => ⟨h.capturing.mpr (hpre.2 hstart).1, hstopped (hpre.2 hstart).2⟩⟩
  case vmbPayloadSizeGet =>
    cases hraw
    exact hopen
  case vmbFrameAnnounce =>
    cases hraw
    exact ⟨hopen, hidle hpre.2.1⟩
  case vmbFrameRevokeAll =>
    cases hraw
    exact ⟨hopen, hidle hpre.2⟩
  case vmbCaptureStart =>
    cases hraw
    exact ⟨hopen, hidle hpre.2⟩
  case vmbCaptureEnd =>
    cases hraw
    exact ⟨hopen, hstopped hpre.2⟩
  case vmbCaptureQueueFlush =>
    cases hraw
    exact hopen
  case vmbCaptureFrameQueue =>
    cases hraw
    exact ⟨hopen, h.capturing.mpr hpre.2.1, (h.announced _).mpr (Or.inr hpre.2.2)⟩
  all_goals trivial

theorem capturing_next (hraw : rawOf c = some raw) :
    (atSdk.next w (.sdk c) r).capturing =
      (sdkStartsCapture raw ⟨c, r⟩ || w.capturing && !sdkEndsCapture raw ⟨c, r⟩) := by
  cases c <;> cases hraw
  case vmbFeatureCommandRun =>
    simp only [atSdk, sdkStartsCapture, sdkEndsCapture, Bool.false_or, Bool.not_false, Bool.and_true]
    split
    · rfl
    · split <;> rfl
  case vmbFrameAnnounce =>
    simp only [atSdk, sdkStartsCapture, sdkEndsCapture, Bool.false_or, Bool.not_false, Bool.and_true]
    split <;> rfl
  case vmbCaptureStart =>
    simp only [atSdk, sdkStartsCapture, sdkEndsCapture, true_and, Bool.not_false, Bool.and_true]
    split <;> simp [*]
  all_goals simp [atSdk, sdkStartsCapture, sdkEndsCapture]

theorem acquiring_next (hraw : rawOf c = some raw) :
    (atSdk.next w (.sdk c) r).acquiring =
      (sdkStartsAcquisition raw ⟨c, r⟩ || w.acquiring && !sdkStopsAcquisition raw ⟨c, r⟩) := by
  cases c <;> cases hraw
  case vmbFeatureCommandRun name =>
    simp only [atSdk, sdkStartsAcquisition, sdkStopsAcquisition, true_and]
    by_cases hstop : Names featureAcquisitionStop name
    · have hstart : ¬ Names featureAcquisitionStart name := fun hstart =>
        not_names_start_stop hstart hstop
      simp [hstop, hstart]
    · rw [if_neg hstop]
      split <;> simp [*]
  case vmbFrameAnnounce =>
    simp only [atSdk, sdkStartsAcquisition, sdkStopsAcquisition, Bool.false_or, Bool.not_false,
      Bool.and_true]
    split <;> rfl
  case vmbCaptureStart =>
    simp only [atSdk, sdkStartsAcquisition, sdkStopsAcquisition, Bool.false_or, Bool.not_false,
      Bool.and_true]
    split <;> rfl
  all_goals simp [atSdk, sdkStartsAcquisition, sdkStopsAcquisition]

theorem announced_next (hraw : rawOf c = some raw) (hpre : atSdk.pre w (.sdk c)) (ptr : Nat) :
    (atSdk.next w (.sdk c) r).Announced ptr ↔
      sdkAnnounces raw ptr ⟨c, r⟩ = true ∨ w.Announced ptr ∧ ¬ sdkRevokes raw ⟨c, r⟩ = true := by
  cases c <;> cases hraw
  case vmbFeatureCommandRun =>
    simp only [atSdk, sdkAnnounces, sdkRevokes, Bool.false_eq_true, false_or, not_false_eq_true,
      and_true]
    split
    · rfl
    · split <;> rfl
  case vmbFrameAnnounce ptr' =>
    simp only [atSdk, sdkAnnounces, sdkRevokes, true_and, Bool.false_eq_true, not_false_eq_true,
      and_true, decide_eq_true_eq]
    split
    · simp [CameraView.Announced, hpre.2.2, *]
    · simp [*]
  case vmbCaptureStart =>
    simp only [atSdk, sdkAnnounces, sdkRevokes, Bool.false_eq_true, false_or, not_false_eq_true,
      and_true]
    split <;> rfl
  all_goals simp [atSdk, sdkAnnounces, sdkRevokes, CameraView.Announced]

/-- **And it changes the account as it changes the view.** -/
theorem Account.own (h : Account log raw w) (hraw : rawOf c = some raw)
    (hpre : atSdk.pre w (.sdk c)) :
    Account (log ++ [⟨c, r⟩]) raw (atSdk.next w (.sdk c) r) where
  capturing := by
    have hcapturing := h.capturing
    unfold SdkCapturing at hcapturing ⊢
    rw [since_append, capturing_next hraw, hcapturing]
    simp
  acquiring hlater := by
    have hacquiring := h.acquiring
    unfold SdkAcquiring at hacquiring hlater
    rw [since_append] at hlater
    rw [acquiring_next hraw]
    rcases hlater with hstarts | ⟨hbefore, hstops⟩
    · simp [hstarts]
    · simp [hacquiring hbefore, hstops]
  announced ptr := by
    have hannounced := h.announced ptr
    unfold SdkAnnounced at hannounced ⊢
    rw [since_append, hannounced]
    exact (announced_next hraw hpre ptr).symm

/-! ## All owners -/

/-- What the steps of all threads have made of their cameras is what the tables and the SDK say.
`filed` is what each thread has put into a table so far. -/
structure OwnersInv (view : ι → CameraView) (filed : ι → List Ident) (s : FfiState)
    (log : List (Event VmbC)) : Prop where
  table : ∀ t h raw, (view t).camera = some (h, raw) → s.cameras.lookup h = some raw
  frames : ∀ t slot ptr, (slot, ptr) ∈ (view t).frames → Ident.slot slot ∈ filed t ∧
    ∀ ctx, s.frames.lookup slot = some ctx → ctx.addr = ptr
  single : ∀ t, (view t).camera = none ∨ (view t).hand = none
  owned : ∀ t raw, (view t).Owns raw → SdkOpen log raw ∧ Account log raw (view t)
  unowned : ∀ raw, (∀ t, ¬ (view t).Owns raw) → Account log raw {}
  apart : ∀ t u raw, (view t).Owns raw → (view u).Owns raw → t = u

theorem OwnersInv.init {s : FfiState} : OwnersInv (fun _ : ι => {}) (fun _ => []) s [] where
  table t h raw hcamera := by cases hcamera
  frames t slot ptr hframe := absurd hframe List.not_mem_nil
  single t := Or.inl rfl
  owned t raw howns := by rcases howns with h | h <;> cases h
  unowned raw _ := by
    refine ⟨⟨fun h => absurd h since_nil, fun h => by cases h⟩, fun h => absurd h since_nil,
      fun ptr => ⟨fun h => absurd h since_nil, ?_⟩⟩
    rintro (h | h)
    · cases h
    · exact absurd h List.not_mem_nil
  apart t u raw howns := by rcases howns with h | h <;> cases h

variable {view : ι → CameraView} {filed : ι → List Ident} {s : FfiState} {t : ι}

/-- A thread has one raw handle at most. -/
theorem OwnersInv.owns_eq (h : OwnersInv view filed s log) {raw raw' : VmbHandle}
    (howns : (view t).Owns raw) (howns' : (view t).Owns raw') : raw = raw' := by
  rcases h.single t with hnone | hnone
  · rcases howns with howns | howns
    · rw [CameraView.raw, hnone] at howns
      cases howns
    · rcases howns' with howns' | howns'
      · rw [CameraView.raw, hnone] at howns'
        cases howns'
      · exact Option.some.inj (howns.symm.trans howns')
  · rcases howns with howns | howns
    · rcases howns' with howns' | howns'
      · exact Option.some.inj (howns.symm.trans howns')
      · rw [hnone] at howns'
        cases howns'
    · rw [hnone] at howns
      cases howns

/-- A call is about a raw handle of the thread that makes it. -/
theorem owns_of_pre (hraw : rawOf c = some raw) (hpre : atSdk.pre w (.sdk c)) : w.Owns raw := by
  cases c
  case vmbCameraClose =>
    cases hraw
    have hw : w = { hand := some raw } := hpre
    rw [hw]
    exact Or.inr rfl
  case vmbSettingsLoad => cases hraw; exact Or.inl hpre
  case vmbFeatureCommandRun => cases hraw; exact Or.inl hpre.1
  case vmbPayloadSizeGet => cases hraw; exact Or.inl hpre
  case vmbFrameAnnounce => cases hraw; exact Or.inl hpre.1
  case vmbFrameRevokeAll => cases hraw; exact Or.inl hpre.1
  case vmbCaptureStart => cases hraw; exact Or.inl hpre.1
  case vmbCaptureEnd => cases hraw; exact Or.inl hpre.1
  case vmbCaptureQueueFlush => cases hraw; exact Or.inl hpre
  case vmbCaptureFrameQueue => cases hraw; exact Or.inl hpre.1
  all_goals cases hraw

/-- An SDK call leaves the camera in the table, and no frame is added to those with a slot. -/
theorem next_sdk (w : CameraView) (c : SdkCall) (r : c.Resp) :
    (atSdk.next w (.sdk c) r).camera = w.camera ∧ (atSdk.next w (.sdk c) r).frames ⊆ w.frames := by
  cases c
  case vmbCameraOpen =>
    simp only [atSdk]
    split <;> exact ⟨rfl, List.Subset.refl _⟩
  case vmbFeatureCommandRun =>
    simp only [atSdk]
    split
    · exact ⟨rfl, List.Subset.refl _⟩
    · split <;> exact ⟨rfl, List.Subset.refl _⟩
  case vmbFrameAnnounce =>
    simp only [atSdk]
    split <;> exact ⟨rfl, List.Subset.refl _⟩
  case vmbCaptureStart =>
    simp only [atSdk]
    split <;> exact ⟨rfl, List.Subset.refl _⟩
  case vmbFrameRevokeAll => exact ⟨rfl, List.nil_subset _⟩
  all_goals exact ⟨rfl, List.Subset.refl _⟩

/-- What an SDK call does with the raw handle of a view. -/
inductive RawStep (w : CameraView) (c : SdkCall) (r : c.Resp) : Prop where
  | opens (raw : VmbHandle) (about : rawOf c = none) (rc : sdkOpens raw ⟨c, r⟩ = true) (before : w = {})
      (after : atSdk.next w (.sdk c) r = { hand := some raw })
  | closes (raw : VmbHandle) (about : rawOf c = some raw) (before : w = { hand := some raw })
      (after : atSdk.next w (.sdk c) r = {})
  | uses (raw : VmbHandle) (about : rawOf c = some raw) (stays : sdkCloses raw ⟨c, r⟩ = false)
      (hand : (atSdk.next w (.sdk c) r).hand = w.hand)
  | other (about : rawOf c = none) (same : atSdk.next w (.sdk c) r = w)

theorem rawStep (hpre : atSdk.pre w (.sdk c)) : RawStep w c r := by
  cases c
  case vmbCameraOpen cId mode =>
    have hw : w = {} := hpre
    subst hw
    by_cases hrc : r.1 = 0
    · exact .opens r.2 rfl (by simp [sdkOpens, hrc]) rfl (if_pos hrc)
    · exact .other rfl (if_neg hrc)
  case vmbCameraClose raw =>
    have hw : w = { hand := some raw } := hpre
    subst hw
    exact .closes raw rfl rfl rfl
  case vmbFeatureCommandRun raw cmd =>
    refine .uses raw rfl rfl ?_
    simp only [atSdk]
    split
    · rfl
    · split <;> rfl
  case vmbFrameAnnounce raw ptr =>
    refine .uses raw rfl rfl ?_
    simp only [atSdk]
    split <;> rfl
  case vmbCaptureStart raw =>
    refine .uses raw rfl rfl ?_
    simp only [atSdk]
    split <;> rfl
  case vmbSettingsLoad raw path => exact .uses raw rfl rfl rfl
  case vmbPayloadSizeGet raw => exact .uses raw rfl rfl rfl
  case vmbFrameRevokeAll raw => exact .uses raw rfl rfl rfl
  case vmbCaptureEnd raw => exact .uses raw rfl rfl rfl
  case vmbCaptureQueueFlush raw => exact .uses raw rfl rfl rfl
  case vmbCaptureFrameQueue raw ptr f => exact .uses raw rfl rfl rfl
  all_goals exact .other rfl rfl

theorem not_owns_empty {raw : VmbHandle} : ¬ (CameraView.Owns {} raw) := by
  rintro (h | h) <;> cases h

theorem owns_hand {raw raw' : VmbHandle} : CameraView.Owns { hand := some raw' } raw ↔ raw' = raw := by
  simp [CameraView.Owns, CameraView.raw]

section SdkStep

variable [DecidableEq ι] {w' : CameraView}

/-- One thread has a new view after an SDK call. -/
theorem OwnersInv.update (h : OwnersInv view filed s log) (hcamera : w'.camera = (view t).camera)
    (hframes : w'.frames ⊆ (view t).frames) (hsingle : w'.camera = none ∨ w'.hand = none)
    (howned : ∀ raw, w'.Owns raw → SdkOpen (log ++ [⟨c, r⟩]) raw ∧ Account (log ++ [⟨c, r⟩]) raw w' ∧
      ∀ u, u ≠ t → ¬ (view u).Owns raw)
    (hothers : ∀ u raw, u ≠ t → (view u).Owns raw → rawOf c ≠ some raw)
    (hunowned : ∀ raw, ¬ w'.Owns raw → (∀ u, u ≠ t → ¬ (view u).Owns raw) →
      Account (log ++ [⟨c, r⟩]) raw {}) :
    OwnersInv (Function.update view t w') filed s (log ++ [⟨c, r⟩]) := by
  have hother : ∀ u, u ≠ t → Function.update view t w' u = view u := fun u hu =>
    Function.update_of_ne hu ..
  refine ⟨fun u => ?_, fun u => ?_, fun u => ?_, fun u raw howns => ?_, fun raw hnone => ?_,
    fun u u' raw howns howns' => ?_⟩
  · rcases eq_or_ne u t with rfl | hu
    · rw [Function.update_self, hcamera]
      exact h.table u
    · rw [hother u hu]
      exact h.table u
  · rcases eq_or_ne u t with rfl | hu
    · rw [Function.update_self]
      exact fun slot ptr hframe => h.frames u slot ptr (hframes hframe)
    · rw [hother u hu]
      exact h.frames u
  · rcases eq_or_ne u t with rfl | hu
    · rw [Function.update_self]
      exact hsingle
    · rw [hother u hu]
      exact h.single u
  · rcases eq_or_ne u t with rfl | hu
    · rw [Function.update_self] at howns ⊢
      exact ⟨(howned raw howns).1, (howned raw howns).2.1⟩
    · rw [hother u hu] at howns ⊢
      obtain ⟨hopen, haccount⟩ := h.owned u raw howns
      have hc := hothers u raw hu howns
      exact ⟨hopen.other hc, haccount.other hc⟩
  · refine hunowned raw ?_ fun u hu => ?_
    · have hself := hnone t
      rw [Function.update_self] at hself
      exact hself
    · have hothers := hnone u
      rw [hother u hu] at hothers
      exact hothers
  · by_cases hu : u = t <;> by_cases hu' : u' = t
    · exact hu.trans hu'.symm
    · subst hu
      rw [Function.update_self] at howns
      rw [hother u' hu'] at howns'
      exact absurd howns' ((howned raw howns).2.2 u' hu')
    · subst hu'
      rw [hother u hu] at howns
      rw [Function.update_self] at howns'
      exact absurd howns ((howned raw howns').2.2 u hu)
    · rw [hother u hu] at howns
      rw [hother u' hu'] at howns'
      exact h.apart u u' raw howns howns'

/-- **An SDK call keeps the accounts.** -/
theorem OwnersInv.sdk (h : OwnersInv view filed s log) (hpre : atSdk.pre (view t) (.sdk c))
    (hfresh : ∀ raw, sdkOpens raw ⟨c, r⟩ = true → ¬ SdkOpen log raw) :
    OwnersInv (Function.update view t (atSdk.next (view t) (.sdk c) r)) filed s (log ++ [⟨c, r⟩]) := by
  obtain ⟨hcamera, hframes⟩ := next_sdk (view t) c r
  have hunowned : ∀ raw, ¬ (view t).Owns raw → (∀ u, u ≠ t → ¬ (view u).Owns raw) →
      Account log raw {} := fun raw hself hothers => h.unowned raw fun u => by
    rcases eq_or_ne u t with rfl | hu
    · exact hself
    · exact hothers u hu
  cases rawStep (r := r) hpre with
  | opens raw₀ about rc before after =>
      have hnone : ∀ raw, rawOf c ≠ some raw := fun raw hraw => by
        rw [about] at hraw
        cases hraw
      -- the new raw handle was open nowhere, so nobody had it
      have hnew : ∀ u, ¬ (view u).Owns raw₀ := fun u howns => hfresh raw₀ rc (h.owned u raw₀ howns).1
      rw [after] at hcamera hframes ⊢
      refine h.update hcamera hframes (Or.inl rfl) (fun raw howns => ?_) (fun u raw _ _ => hnone raw)
        fun raw hraw hothers => ?_
      · obtain rfl := owns_hand.mp howns
        refine ⟨since_append.mpr (Or.inl rc), ?_, fun u _ => hnew u⟩
        exact ((h.unowned raw₀ hnew).other (hnone raw₀)).congr rfl rfl fun _ => Iff.rfl
      · refine (hunowned raw ?_ hothers).other (hnone raw)
        rw [before]
        exact not_owns_empty
  | closes raw₀ about before after =>
      have hown : (view t).Owns raw₀ := owns_of_pre about hpre
      have hothers : ∀ u raw, u ≠ t → (view u).Owns raw → rawOf c ≠ some raw := by
        intro u raw hu howns hraw
        obtain rfl := Option.some.inj (about.symm.trans hraw)
        exact hu (h.apart u t raw₀ howns hown)
      have haccount := (h.owned t raw₀ hown).2.own (r := r) about hpre
      rw [after] at hcamera hframes haccount ⊢
      refine h.update hcamera hframes (Or.inl rfl) (fun raw howns => absurd howns not_owns_empty)
        hothers fun raw _ hothers => ?_
      rcases eq_or_ne raw raw₀ with rfl | hne
      · exact haccount
      · refine (hunowned raw ?_ hothers).other fun hraw => ?_
        · rw [before, owns_hand]
          exact hne.symm
        · exact hne (Option.some.inj (hraw.symm.trans about))
  | uses raw₀ about stays hand =>
      have hown : (view t).Owns raw₀ := owns_of_pre about hpre
      have howns : ∀ raw, (atSdk.next (view t) (.sdk c) r).Owns raw ↔ (view t).Owns raw := by
        intro raw
        unfold CameraView.Owns CameraView.raw
        rw [hcamera, hand]
      refine h.update hcamera hframes ?_ (fun raw hraw => ?_) (fun u raw hu hraw heq => ?_)
        fun raw hraw hothers => ?_
      · rw [hcamera, hand]
        exact h.single t
      · obtain rfl := h.owns_eq hown ((howns raw).mp hraw)
        obtain ⟨hopen, haccount⟩ := h.owned t raw₀ hown
        refine ⟨?_, haccount.own about hpre, fun u hu hu' => hu (h.apart u t raw₀ hu' hown)⟩
        exact sdkOpen_append.mpr (Or.inr ⟨hopen, by simp [stays]⟩)
      · obtain rfl := Option.some.inj (about.symm.trans heq)
        exact hu (h.apart u t raw₀ hraw hown)
      · have hraw := fun hold => hraw ((howns raw).mpr hold)
        refine (hunowned raw hraw hothers).other fun heq => hraw ?_
        obtain rfl := Option.some.inj (about.symm.trans heq)
        exact hown
  | other about same =>
      have hnone : ∀ raw, rawOf c ≠ some raw := fun raw hraw => by
        rw [about] at hraw
        cases hraw
      rw [same] at hcamera hframes ⊢
      refine h.update hcamera hframes (h.single t) (fun raw howns => ?_) (fun u raw _ _ => hnone raw)
        fun raw hraw hothers => (hunowned raw hraw hothers).other (hnone raw)
      obtain ⟨hopen, haccount⟩ := h.owned t raw howns
      exact ⟨hopen.other (hnone raw), haccount.other (hnone raw),
        fun u hu howns' => hu (h.apart u t raw howns' howns)⟩

end SdkStep

section AccessStep

variable [DecidableEq ι] {w' : CameraView} {s' : FfiState} {filed' : ι → List Ident}

/-- One thread has a new view of the same raw handle, and the tables have changed. -/
theorem OwnersInv.exchange (h : OwnersInv view filed s log)
    (howns : ∀ raw, w'.Owns raw ↔ (view t).Owns raw) (hcapturing : w'.capturing = (view t).capturing)
    (hacquiring : w'.acquiring = (view t).acquiring)
    (hannounced : ∀ ptr, w'.Announced ptr ↔ (view t).Announced ptr)
    (hsingle : w'.camera = none ∨ w'.hand = none)
    (htable : ∀ u h raw, (Function.update view t w' u).camera = some (h, raw) →
      s'.cameras.lookup h = some raw)
    (hframes : ∀ u slot ptr, (slot, ptr) ∈ (Function.update view t w' u).frames →
      Ident.slot slot ∈ filed' u ∧ ∀ ctx, s'.frames.lookup slot = some ctx → ctx.addr = ptr) :
    OwnersInv (Function.update view t w') filed' s' log := by
  have hown : ∀ u raw, (Function.update view t w' u).Owns raw ↔ (view u).Owns raw := by
    intro u raw
    rcases eq_or_ne u t with rfl | hu
    · rw [Function.update_self]
      exact howns raw
    · rw [Function.update_of_ne hu]
  refine ⟨htable, hframes, fun u => ?_, fun u raw hraw => ?_, fun raw hnone => ?_,
    fun u u' raw hraw hraw' => h.apart u u' raw ((hown u raw).mp hraw) ((hown u' raw).mp hraw')⟩
  · rcases eq_or_ne u t with rfl | hu
    · rw [Function.update_self]
      exact hsingle
    · rw [Function.update_of_ne hu]
      exact h.single u
  · obtain ⟨hopen, haccount⟩ := h.owned u raw ((hown u raw).mp hraw)
    refine ⟨hopen, ?_⟩
    rcases eq_or_ne u t with rfl | hu
    · rw [Function.update_self]
      exact haccount.congr hcapturing hacquiring hannounced
    · rw [Function.update_of_ne hu]
      exact haccount
  · exact h.unowned raw fun u hu => hnone u ((hown u raw).mpr hu)

/-- An access that is not about the camera of the thread. -/
theorem OwnersInv.keep (h : OwnersInv view filed s log) (hgrow : ∀ u, filed u ⊆ filed' u)
    (hcameras : s'.cameras = s.cameras)
    (hframes : ∀ slot ctx, s'.frames.lookup slot = some ctx →
      ∃ ctx', s.frames.lookup slot = some ctx' ∧ ctx'.addr = ctx.addr) :
    OwnersInv (Function.update view t (view t)) filed' s' log := by
  refine h.exchange (fun _ => Iff.rfl) rfl rfl (fun _ => Iff.rfl) (h.single t) ?_ ?_
  · rw [Function.update_eq_self, hcameras]
    exact h.table
  · rw [Function.update_eq_self]
    intro u slot ptr hframe
    obtain ⟨hfiled, haddr⟩ := h.frames u slot ptr hframe
    refine ⟨hgrow u hfiled, fun ctx hctx => ?_⟩
    obtain ⟨ctx', hctx', heq⟩ := hframes slot ctx hctx
    exact heq.symm.trans (haddr ctx' hctx')

/-- The camera comes into the table under a handle nobody has. -/
theorem OwnersInv.insertCamera (h : OwnersInv view filed s log) (hgrow : ∀ u, filed u ⊆ filed' u)
    {handle : CameraHandle} {raw : VmbHandle}
    (hpre : atSdk.pre (view t) (.access (.insertCamera handle raw))) (habsent : handle ∉ s.cameras) :
    OwnersInv (Function.update view t { view t with camera := some (handle, raw), hand := none }) filed'
      (s.access (.insertCamera handle raw)).2 log := by
  obtain ⟨hhand, hcamera⟩ := hpre
  refine h.exchange (fun raw' => ?_) rfl rfl (fun _ => Iff.rfl) (Or.inr rfl) (fun u h' raw' hu => ?_)
    fun u slot ptr hframe => ?_
  · simp [CameraView.Owns, CameraView.raw, hhand, hcamera]
  · show (s.cameras.insert handle raw).lookup h' = some raw'
    by_cases hut : u = t
    · subst hut
      rw [Function.update_self] at hu
      cases hu
      exact Finmap.lookup_insert _
    · rw [Function.update_of_ne hut] at hu
      have hlookup := h.table u h' raw' hu
      have hne : h' ≠ handle := by
        rintro rfl
        exact habsent (Finmap.mem_of_lookup_eq_some hlookup)
      rw [Finmap.lookup_insert_of_ne _ hne]
      exact hlookup
  · have hsame : (Function.update view t
        { view t with camera := some (handle, raw), hand := none } u).frames = (view u).frames := by
      by_cases hut : u = t
      · subst hut
        rw [Function.update_self]
      · rw [Function.update_of_ne hut]
    rw [hsame] at hframe
    obtain ⟨hfiled, haddr⟩ := h.frames u slot ptr hframe
    exact ⟨hgrow u hfiled, haddr⟩

/-- A thread takes its camera out of the table, and no other's. -/
theorem OwnersInv.removeCamera (h : OwnersInv view filed s log) (hgrow : ∀ u, filed u ⊆ filed' u)
    {handle : CameraHandle} {raw : VmbHandle} (hcamera : (view t).camera = some (handle, raw))
    (hhand : (view t).hand = none) :
    OwnersInv (Function.update view t { view t with camera := none, hand := some raw }) filed'
      (s.access (.removeCamera handle)).2 log := by
  have hown : (view t).Owns raw := Or.inl (by rw [CameraView.raw, hcamera]; rfl)
  refine h.exchange (fun raw' => ?_) rfl rfl (fun _ => Iff.rfl) (Or.inl rfl) (fun u h' raw' hu => ?_)
    fun u slot ptr hframe => ?_
  · simp [CameraView.Owns, CameraView.raw, hhand, hcamera]
  · show (s.cameras.erase handle).lookup h' = some raw'
    by_cases hut : u = t
    · subst hut
      rw [Function.update_self] at hu
      cases hu
    · rw [Function.update_of_ne hut] at hu
      have hlookup := h.table u h' raw' hu
      have hne : h' ≠ handle := by
        rintro rfl
        obtain rfl := Option.some.inj (hlookup.symm.trans (h.table t _ raw hcamera))
        exact hut (h.apart u t raw' (Or.inl (by rw [CameraView.raw, hu]; rfl)) hown)
      rw [Finmap.lookup_erase_ne hne]
      exact hlookup
  · have hsame : (Function.update view t
        { view t with camera := none, hand := some raw } u).frames = (view u).frames := by
      by_cases hut : u = t
      · subst hut
        rw [Function.update_self]
      · rw [Function.update_of_ne hut]
    rw [hsame] at hframe
    obtain ⟨hfiled, haddr⟩ := h.frames u slot ptr hframe
    exact ⟨hgrow u hfiled, haddr⟩

/-- A frame comes into the table under a slot nobody has used. -/
theorem OwnersInv.insertFrame (h : OwnersInv view filed s log) (hgrow : ∀ u, filed u ⊆ filed' u)
    {slot : FrameSlotId} {ctx : Box TrampolineContext} (hpending : (view t).pending = some ctx.addr)
    (hfiled : Ident.slot slot ∈ filed' t) (hunfiled : ∀ u, Ident.slot slot ∉ filed u) :
    OwnersInv (Function.update view t
      { view t with frames := (view t).frames ++ [(slot, ctx.addr)], pending := none }) filed'
      (s.access (.insertFrame slot ctx)).2 log := by
  -- the frames the threads had
  have hold : ∀ u slot' ptr, (slot', ptr) ∈ (view u).frames → Ident.slot slot' ∈ filed' u ∧
      ∀ ctx', (s.frames.insert slot ctx).lookup slot' = some ctx' → ctx'.addr = ptr := by
    intro u slot' ptr hframe
    obtain ⟨hmine, haddr⟩ := h.frames u slot' ptr hframe
    have hne : slot' ≠ slot := by
      rintro rfl
      exact hunfiled u hmine
    rw [Finmap.lookup_insert_of_ne _ hne]
    exact ⟨hgrow u hmine, haddr⟩
  refine h.exchange (fun _ => Iff.rfl) rfl rfl (fun ptr => ?_) (h.single t) (fun u h' raw' hu => ?_)
    fun u slot' ptr hframe => ?_
  · simp [CameraView.Announced, hpending, or_comm, eq_comm]
  · refine h.table u h' raw' ?_
    by_cases hut : u = t
    · subst hut
      rw [Function.update_self] at hu
      exact hu
    · rw [Function.update_of_ne hut] at hu
      exact hu
  · by_cases hut : u = t
    · subst hut
      rw [Function.update_self] at hframe
      rcases List.mem_append.mp hframe with hframe | hframe
      · exact hold u slot' ptr hframe
      · cases List.mem_singleton.mp hframe
        refine ⟨hfiled, fun ctx' hctx => ?_⟩
        have hctx : (s.frames.insert slot ctx).lookup slot = some ctx' := hctx
        rw [Finmap.lookup_insert] at hctx
        exact congrArg Box.addr (Option.some.inj hctx).symm
    · rw [Function.update_of_ne hut] at hframe
      exact hold u slot' ptr hframe

omit [DecidableEq ι] in
/-- **The tables answer a thread as it counts on.** -/
theorem OwnersInv.answers (h : OwnersInv view filed s log) (hid : s.currentId ≠ 0) {c : Access}
    (hpre : atSdk.pre (view t) (.access c)) : Answers (view t) (.access c) (s.access c).1 := by
  have hlookup : ∀ handle, (view t).handle = some handle → s.cameras.lookup handle = (view t).raw := by
    intro handle hhandle
    obtain ⟨raw, hcamera⟩ := CameraView.raw_of_handle hhandle
    rw [h.table t handle raw hcamera, CameraView.raw, hcamera]
    rfl
  cases c
  case fetchAdd => exact hid
  case getCamera handle => exact hlookup handle hpre
  case removeCamera handle => exact hlookup handle hpre.1
  case patchFrame slot callback =>
    obtain ⟨⟨slot', ptr⟩, hframe, hslot⟩ := List.mem_map.mp hpre
    obtain rfl : slot' = slot := hslot
    intro ptr' hptr
    have hptr : (s.access (.patchFrame slot' callback)).1 = some ptr' := hptr
    unfold FfiState.access at hptr
    rcases hctx : s.frames.lookup slot' with - | ctx
    · simp [hctx] at hptr
    · simp only [hctx, Option.some.injEq] at hptr
      obtain rfl : ctx.addr = ptr' := hptr
      rw [(h.frames t slot' ptr hframe).2 ctx hctx]
      exact hframe
  all_goals trivial

/-- **An access keeps the accounts.** -/
theorem OwnersInv.access (h : OwnersInv view filed s log) (hgrow : ∀ u, filed u ⊆ filed' u)
    {c : Access} (hpre : atSdk.pre (view t) (.access c))
    (habsent : ∀ handle raw, c = .insertCamera handle raw → handle ∉ s.cameras)
    (hslot : ∀ slot ctx, c = .insertFrame slot ctx →
      Ident.slot slot ∈ filed' t ∧ ∀ u, Ident.slot slot ∉ filed u) :
    OwnersInv (Function.update view t (atSdk.next (view t) (.access c) (s.access c).1)) filed'
      (s.access c).2 log := by
  have hkeep : atSdk.next (view t) (.access c) (s.access c).1 = view t →
      (s.access c).2.cameras = s.cameras →
      (∀ slot ctx, (s.access c).2.frames.lookup slot = some ctx →
        ∃ ctx', s.frames.lookup slot = some ctx' ∧ ctx'.addr = ctx.addr) →
      OwnersInv (Function.update view t (atSdk.next (view t) (.access c) (s.access c).1)) filed'
        (s.access c).2 log := fun hnext hcameras hframes => by
    rw [hnext]
    exact h.keep hgrow hcameras hframes
  cases c
  case insertCamera handle raw => exact h.insertCamera hgrow hpre (habsent handle raw rfl)
  case removeCamera handle =>
    obtain ⟨raw, hcamera⟩ := CameraView.raw_of_handle hpre.1
    have hnext : atSdk.next (view t) (.access (.removeCamera handle))
        (s.access (.removeCamera handle)).1 = { view t with camera := none, hand := some raw } := by
      show ({ view t with camera := none, hand := s.cameras.lookup handle } : CameraView) = _
      rw [h.table t handle raw hcamera]
    rw [hnext]
    exact h.removeCamera hgrow hcamera hpre.2
  case insertFrame slot ctx =>
    obtain ⟨hfiled, hunfiled⟩ := hslot slot ctx rfl
    exact h.insertFrame hgrow hpre hfiled hunfiled
  case patchFrame slot callback =>
    rcases hctx : s.frames.lookup slot with - | ctx
    · have hsame : (s.access (.patchFrame slot callback)).2 = s := by
        unfold FfiState.access
        simp only [hctx]
      exact hkeep rfl (by rw [hsame]) (by rw [hsame]; exact fun _ ctx hctx => ⟨ctx, hctx, rfl⟩)
    · have hsame : (s.access (.patchFrame slot callback)).2 =
          { s with frames := s.frames.insert slot (ctx.setCallback callback).vmbFrameMutPtr.2 } := by
        unfold FfiState.access
        simp only [hctx]
      refine hkeep rfl (by rw [hsame]) fun slot' ctx' hctx' => ?_
      rw [hsame] at hctx'
      rcases eq_or_ne slot' slot with rfl | hne
      · have haddr := congrArg (Option.map Box.addr) hctx'
        rw [Finmap.lookup_insert] at haddr
        exact ⟨ctx, hctx, Option.some.inj haddr⟩
      · rw [Finmap.lookup_insert_of_ne _ hne] at hctx'
        exact ⟨ctx', hctx', rfl⟩
  case clearFrames =>
    refine hkeep rfl rfl fun slot ctx hctx => ?_
    have hctx : Finmap.lookup slot (∅ : Finmap fun _ => Box TrampolineContext) = some ctx := hctx
    rw [Finmap.lookup_empty] at hctx
    cases hctx
  all_goals exact hkeep rfl rfl fun _ ctx hctx => ⟨ctx, hctx, rfl⟩

end AccessStep

/-! ## Every interleaving -/

theorem clientSteps_files (a : Action) (obj : Option Object) (v : Register.View Ident) :
    (clientSteps a obj).Meets (register τ).discipline (fun _ _ => True) v := by
  have himpl : ∀ (u : Unit) (v : Register.View Ident) c, True → (Contract.free Port).pre u c →
      (steps c).Meets (register τ).discipline (fun _ _ => True) v :=
    fun _ v c _ _ => (steps_files c v).mono fun _ _ _ => trivial
  exact ((a.perform obj).meets_free.through trivial himpl).mono fun _ _ _ => trivial

variable [DecidableEq ι]

/-- Threads that own an object of the domain layer each. -/
abbrev Clients (τ ι : Type) : Type := Pool Steps (FfiState × τ) ι (Option Object) Outcome

/-- Each thread performs operations on its object, one atomic step of the adapter at a time. -/
def clients (api : VmbApi τ) (started : Bool) (t : τ) (moves : List (Move ι Action)) : Clients τ ι :=
  (Pool.init ({ FfiState.new with started := started }, t) none).run (stepMachine api) clientSteps moves

/-- Every thread keeps its protocol, the accounts agree, and the rules have been kept. -/
structure RulesKept (P : Clients τ ι) : Prop where
  sound : P.Sound trustingSdk (some {}) (fun _ _ => True)
    (Trusted fun obj w => SameCamera (ownedBy obj) w) fun _ => True
  numbered : Numbered (register τ) 1 P
  accounts : ∃ view, Pool.view trustingSdk (some {}) P.log = (fun u => some (view u)) ∧
    OwnersInv view (fun u => (P.holding (register τ) u).filed) P.shared.1 (sdkTrace P.log)
  rules : Conforms SdkAllowed (sdkTrace P.log)

theorem RulesKept.init (s : FfiState) (t : τ) (hcounter : s.counter = 1) (hnew : ∀ k, ¬ s.Has k) :
    RulesKept (Pool.init (s, t) none : Clients τ ι) where
  sound := Pool.sound_init fun w hw => by
    cases hw
    exact ⟨rfl, rfl, rfl, rfl, fun _ h => h, rfl, rfl⟩
  numbered := by
    have hinit := Numbered.init (D := register τ) (s := (s, t)) (x := (none : Option Object))
      (R := Outcome) (ι := ι) hnew
    have hone : (register τ).counter (s, t) = 1 := hcounter
    rw [hone] at hinit
    exact hinit
  accounts := ⟨fun _ => {}, rfl, OwnersInv.init⟩
  rules := conforms_nil

variable {P : Clients τ ι} {u : ι}

/-- What a thread is about to do is allowed in its view. -/
theorem RulesKept.pre (h : RulesKept P) {view : ι → CameraView}
    (hview : Pool.view trustingSdk (some {}) P.log = fun u => some (view u)) {c : AtomicStep}
    (hcalls : P.Calls u c) : atSdk.pre (view u) c := by
  have hpre : trustingSdk.pre (Pool.view trustingSdk (some {}) P.log u) c := h.sound.pre hcalls
  rw [hview] at hpre
  exact hpre (view u) rfl

/-- **A move keeps the rules of the SDK.** -/
theorem RulesKept.move (h : RulesKept P) (api : VmbApi τ) {mv : Move ι Action}
    (hid : P.shared.1.currentId ≠ 0)
    (hlimit : (P.move (stepMachine api) clientSteps mv).shared.1.counter ≤ 2 ^ 64)
    (hfresh : FreshOpens (sdkTrace (P.move (stepMachine api) clientSteps mv).log)) :
    RulesKept (P.move (stepMachine api) clientSteps mv) := by
  have hsound : (P.move (stepMachine api) clientSteps mv).Sound trustingSdk (some {}) (fun _ _ => True)
      (Trusted fun obj w => SameCamera (ownedBy obj) w) fun _ => True :=
    h.sound.move mv
      (fun t a obj o _ ho => ((clientSteps_sameCamera a obj ho).mono fun r o' hr => ⟨hr, trivial⟩).ensures)
      fun _ _ _ _ => trivial
  have hnumbered := h.numbered.move (register_obeys api) (fun a obj v => clientSteps_files a obj v) mv
    hlimit
  obtain ⟨view, hview, hinv⟩ := h.accounts
  rcases P.move_cases (stepMachine api) clientSteps mv with
    ⟨hshared, hlog⟩ | ⟨u, c, rfl, hcalls, hshared, hlog⟩
  · refine ⟨hsound, hnumbered, ⟨view, by rw [hlog]; exact hview, ?_⟩, by rw [hlog]; exact h.rules⟩
    unfold Pool.holding
    rw [hshared, hlog]
    exact hinv
  · have hpre := h.pre hview hcalls
    have hgrow : ∀ u', (P.holding (register τ) u').filed ⊆
        ((P.move (stepMachine api) clientSteps (.step u)).holding (register τ) u').filed :=
      fun u' => (filed_grows hlog u').subset
    rcases c with c | c
    · have htrace : sdkTrace (P.move (stepMachine api) clientSteps (.step u)).log =
          sdkTrace P.log ++ [⟨c, (api P.shared.2 c).1⟩] := by
        rw [hlog]
        exact sdkTrace_append P.log u ⟨.sdk c, _⟩
      rw [htrace] at hfresh
      have hnew := (conforms_append.mp hfresh).2
      refine ⟨hsound, hnumbered, ⟨Function.update view u
        (atSdk.next (view u) (.sdk c) (api P.shared.2 c).1), ?_, ?_⟩, ?_⟩
      · rw [hlog]
        exact view_trusting hview trivial
      · rw [htrace, hshared]
        have hsdk := hinv.sdk hpre hnew
        exact ⟨hsdk.table, fun t slot ptr hframe => ⟨hgrow t (hsdk.frames t slot ptr hframe).1,
          (hsdk.frames t slot ptr hframe).2⟩, hsdk.single, hsdk.owned, hsdk.unowned, hsdk.apart⟩
      · rw [htrace]
        refine conforms_append.mpr ⟨h.rules, ?_⟩
        rcases hraw : rawOf c with - | raw
        · show SdkAllowedCall (sdkTrace P.log) c
          cases c <;> trivial
        · obtain ⟨hopen, haccount⟩ := hinv.owned u raw (owns_of_pre hraw hpre)
          exact haccount.allowed hopen hraw hpre
    · have htrace : sdkTrace (P.move (stepMachine api) clientSteps (.step u)).log = sdkTrace P.log := by
        rw [hlog]
        exact (sdkTrace_append P.log u ⟨.access c, _⟩).trans (List.append_nil _)
      refine ⟨hsound, hnumbered, ⟨Function.update view u
        (atSdk.next (view u) (.access c) (P.shared.1.access c).1), ?_, ?_⟩, by rw [htrace]; exact h.rules⟩
      · rw [hlog]
        exact view_trusting hview (hinv.answers hid hpre)
      · rw [htrace, hshared]
        refine hinv.access hgrow hpre (fun handle raw hc => ?_) fun slot ctx hc => ?_
        · subst hc
          exact h.numbered.absent (K := Ident) (k := .camera handle) hcalls rfl
        · subst hc
          exact ⟨mem_filed rfl hlog, fun u' => h.numbered.unfiled hcalls rfl u'⟩

section Runs

variable (api : VmbApi τ) (started : Bool) (t : τ)

theorem counter_clients (moves : List (Move ι Action)) :
    (clients api started t moves : Clients τ ι).shared.1.counter =
      1 + ((register τ).draws (clients api started t moves : Clients τ ι).log).length :=
  (register_obeys api).counter_run _ moves rfl

theorem rulesKept_clients (moves : List (Move ι Action))
    (hlimit : ((register τ).draws (clients api started t moves : Clients τ ι).log).length < 2 ^ 64 - 1)
    (hfresh : FreshOpens (sdkTrace (clients api started t moves : Clients τ ι).log)) :
    RulesKept (clients api started t moves : Clients τ ι) := by
  induction moves using List.reverseRecOn with
  | nil => exact RulesKept.init _ t rfl fun _ => not_has_new
  | append_singleton moves mv ih =>
      have happend : (clients api started t (moves ++ [mv]) : Clients τ ι) =
          (clients api started t moves).move (stepMachine api) clientSteps mv := Pool.run_append _ _ _
      obtain ⟨new, hlog⟩ :=
        Pool.log_move (stepMachine api) clientSteps (clients api started t moves : Clients τ ι) mv
      have hcounter := counter_clients (ι := ι) api started t (moves ++ [mv])
      have hlimit' :
          ((register τ).draws (clients api started t moves : Clients τ ι).log).length < 2 ^ 64 - 1 := by
        rw [happend, hlog, Register.draws, List.filterMap_append, List.length_append] at hlimit
        exact Nat.lt_of_le_of_lt (Nat.le_add_right _ _) hlimit
      have hfresh' : FreshOpens (sdkTrace (clients api started t moves : Clients τ ι).log) := by
        rw [happend, hlog, sdkTrace, List.filterMap_append] at hfresh
        exact Conforms.of_append hfresh
      rw [happend] at hcounter hlimit hfresh ⊢
      refine (ih hlimit' hfresh').move api ?_ (by omega) hfresh
      have hbefore := counter_clients (ι := ι) api started t moves
      exact currentId_ne_zero (by omega) (by omega)

/-- **The SDK is used by its rules**, however the operations of any threads on their own cameras and
subscriptions interleave: every raw handle is used while it is open, its capture is started, fed and
ended in order, and it is closed when every call that takes down what is left of it has been made,
whatever these calls returned. And whenever a method looks a camera up, the camera is in the table. -/
theorem sdk_rules_kept (moves : List (Move ι Action))
    (hlimit : ((register τ).draws (clients api started t moves : Clients τ ι).log).length < 2 ^ 64 - 1)
    (hfresh : FreshOpens (sdkTrace (clients api started t moves : Clients τ ι).log)) :
    Conforms SdkAllowed (sdkTrace (clients api started t moves : Clients τ ι).log) ∧
      ∀ u h, (clients api started t moves : Clients τ ι).Calls u (.access (.getCamera h)) →
        h ∈ (clients api started t moves : Clients τ ι).shared.1.cameras := by
  have hkept := rulesKept_clients api started t moves hlimit hfresh
  refine ⟨hkept.rules, fun u h hcalls => ?_⟩
  obtain ⟨view, hview, hinv⟩ := hkept.accounts
  obtain ⟨raw, hcamera⟩ := CameraView.raw_of_handle (hkept.pre hview hcalls)
  exact Finmap.mem_of_lookup_eq_some (hinv.table u h raw hcamera)

end Runs

/-- Two threads open a camera each; one captures with a frame while the other one closes. -/
def captureWhileClosing : List (Move Bool Action) :=
  [.invoke false (.openCamera "DEV_1"), .invoke true (.openCamera "DEV_2")] ++
    (List.replicate 4 [.step false, .step true]).flatten ++
    [.invoke false (.startCapture 1 ⟨7⟩), .invoke true .drop] ++
    (List.replicate 3 [.step false, .step true]).flatten ++ List.replicate 15 (.step false)

theorem sdk_rules_kept_captureWhileClosing :
    (sdkTrace (clients mockApi false 5 captureWhileClosing : Clients Nat Bool).log).length = 8 ∧
      Conforms SdkAllowed (sdkTrace (clients mockApi false 5 captureWhileClosing : Clients Nat Bool).log) :=
  ⟨by decide +kernel, (sdk_rules_kept mockApi false 5 captureWhileClosing (by decide +kernel)
    (freshOpens_of_nodup (by decide +kernel))).1⟩

end Vmb.Ffi

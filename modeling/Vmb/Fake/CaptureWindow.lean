/-
# Vmb.Fake.CaptureWindow -- queueing outside of a capture

"`queue_frame` must only be called between `capture_start` and `capture_end`", and of the two
adapters it is the fake that is said to enforce this "aggressively". It does not: `queue_frame` makes
the entry of the camera if there is none, so it succeeds whenever it is not rigged to fail, and the
frame can be delivered. The window is kept exactly by the runs whose clients keep it, or whose
frames queued outside of it are rigged to fail (`enforcesWindow_iff`).
-/
import Vmb.Core.Conformance
import Vmb.Fake.Driving

namespace Vmb.Fake

open Vmb.Lib Vmb.Core

/-! ## The window -/

/-- The event ends the capture of the camera. -/
def closesWindow (h : CameraHandle) : Event Port → Bool
  | ⟨.captureEnd h', _⟩ => h' = h
  | ⟨.closeCamera h', _⟩ => h' = h
  | _ => false

/-- The capture of the camera was started, and has not ended since. -/
def WindowOpen (log : List (Event Port)) (h : CameraHandle) : Prop :=
  Since (startsCapture h ·) (closesWindow h ·) log

/-- Frames are queued, and delivered, in the window only. -/
structure EnforcesWindow (s : FakeState) (cs : List PortCall) : Prop where
  refuses : ∀ pre h slot cb post, cs = pre ++ .queueFrame h slot cb :: post →
    ¬ WindowOpen (s.trace pre) h →
      (∃ e, (fakeVmbRuntime (s.after pre) (.queueFrame h slot cb)).1 = .error e) ∧
        (fakeVmbRuntime (s.after pre) (.queueFrame h slot cb)).2.activeCaptures =
          (s.after pre).activeCaptures
  delivers : ∀ pre post, cs = pre ++ post → ∀ h, ¬ WindowOpen (s.trace pre) h →
    ∀ bytes width height pixelFormat, (s.after pre).deliverFrame h bytes width height pixelFormat =
      pure (.returned false, s.after pre)

/-- The client queues a frame in the window, or the call is rigged to fail. -/
def QueuesInWindow (s : FakeState) (cs : List PortCall) : Prop :=
  ∀ pre h slot cb post, cs = pre ++ .queueFrame h slot cb :: post →
    WindowOpen (s.trace pre) h ∨ ∃ e, (s.after pre).injected (.queueFrame h slot cb) = some e

/-! ## One call -/

section Step

variable {s s' : FakeState} {h : CameraHandle} {slot : FrameSlotId} {cb : FrameCallbackId}
  {c : PortCall} {r : c.Resp} {log : List (Event Port)}

/-- A frame is queued if and only if that is not rigged to fail. -/
theorem queueFrame_of_none (hnone : s.injected (.queueFrame h slot cb) = none) :
    (fakeVmbRuntime s (.queueFrame h slot cb)).1 = .ok () := by
  have hguarded : fakeVmbRuntime s (.queueFrame h slot cb) = _ :=
    guarded_of_none s (.queueFrame h slot cb) hnone
  rw [hguarded]

theorem queueFrame_of_some {e : VmbError} (hsome : s.injected (.queueFrame h slot cb) = some e) :
    (fakeVmbRuntime s (.queueFrame h slot cb)).1 = .error e ∧
      (fakeVmbRuntime s (.queueFrame h slot cb)).2.activeCaptures = s.activeCaptures := by
  have hguarded : fakeVmbRuntime s (.queueFrame h slot cb) = _ :=
    guarded_of_some s (.queueFrame h slot cb) hsome
  rw [hguarded]
  exact ⟨rfl, rfl⟩

/-- Entries of `active_captures` are in their windows, as long as frames are queued in theirs. -/
theorem Effect.windowOpen (heff : Effect s c r s')
    (hs : ∀ k w, s.activeCaptures.lookup k = some w → WindowOpen log k)
    (hqueue : ∀ k slot cb, c = .queueFrame k slot cb → WindowOpen log k ∨ ∃ e, Fails e c r) :
    ∀ k w, s'.activeCaptures.lookup k = some w → WindowOpen (log ++ [⟨c, r⟩]) k := by
  intro k w hk
  refine since_append.mpr ?_
  cases heff with
  | failed c e r hr he =>
      refine Or.inr ⟨hs k w hk, ?_⟩
      cases c with
      | captureEnd h => exact absurd hr id
      | closeCamera h => exact absurd hr id
      | _ => exact Bool.false_ne_true
  | quiet c r hr =>
      refine Or.inr ⟨hs k w hk, ?_⟩
      cases c with
      | captureEnd h => exact absurd hr id
      | closeCamera h => exact absurd hr id
      | _ => exact Bool.false_ne_true
  | closed h =>
      obtain ⟨hne, hk⟩ := lookup_erase_eq_some.mp hk
      refine Or.inr ⟨hs k w hk, ?_⟩
      simpa [closesWindow] using Ne.symm hne
  | captureEnded h =>
      obtain ⟨hne, hk⟩ := lookup_erase_eq_some.mp hk
      refine Or.inr ⟨hs k w hk, ?_⟩
      simpa [closesWindow] using Ne.symm hne
  | captureStarted h =>
      rcases lookup_insert_eq_some.mp hk with ⟨rfl, -⟩ | ⟨-, hk⟩
      · exact Or.inl (decide_eq_true rfl)
      · exact Or.inr ⟨hs k w hk, Bool.false_ne_true⟩
  | queued h slot cb =>
      refine Or.inr ⟨?_, Bool.false_ne_true⟩
      rcases lookup_insert_eq_some.mp hk with ⟨rfl, -⟩ | ⟨-, hk⟩
      · rcases hqueue k slot cb rfl with hopen | ⟨e, he⟩
        · exact hopen
        · cases he
      · exact hs k w hk
  | _ => exact Or.inr ⟨hs k w hk, Bool.false_ne_true⟩

/-- A camera without an entry gets no frame. -/
theorem deliverFrame_of_none (hnone : s.activeCaptures.lookup h = none) (bytes : List UInt8)
    (width height : UInt32) (pixelFormat : PixelFormat) :
    s.deliverFrame h bytes width height pixelFormat = pure (.returned false, s) := by
  unfold FakeState.deliverFrame
  rw [hnone]
  rfl

end Step

/-! ## Runs -/

/-- The entries of a run that queues frames in their windows. -/
theorem QueuesInWindow.captures {config : Config} {cs : List PortCall}
    (h : QueuesInWindow (.configured config) cs) :
    ∀ k w, ((FakeState.configured config).after cs).activeCaptures.lookup k = some w →
      WindowOpen ((FakeState.configured config).trace cs) k := by
  induction cs using List.reverseRecOn with
  | nil =>
      intro k w hk
      cases (Finmap.lookup_empty k).symm.trans hk
  | append_singleton cs c ih =>
      have hbefore : QueuesInWindow (.configured config) cs :=
        fun pre k slot cb post hcs => h pre k slot cb (post ++ [c]) (by simp [hcs])
      obtain ⟨s₁, config', calls, heff, -, hstate⟩ :=
        fakeVmbRuntime_step ((FakeState.configured config).after cs) c
      rw [FakeState.after_append, FakeState.trace_append, hstate]
      refine heff.windowOpen (ih hbefore) fun k slot cb hc => ?_
      subst hc
      refine (h cs k slot cb [] rfl).imp_right ?_
      rintro ⟨e, he⟩
      exact ⟨e, fails_of_injected he⟩

/-- **The window is enforced by the clients that keep it, and by rigged failures, and by nothing
else.** Over every run of port calls on a new fake. -/
theorem enforcesWindow_iff (config : Config) (cs : List PortCall) :
    EnforcesWindow (.configured config) cs ↔ QueuesInWindow (.configured config) cs := by
  constructor
  · intro henforces pre h slot cb post hcs
    by_cases hopen : WindowOpen ((FakeState.configured config).trace pre) h
    · exact Or.inl hopen
    · obtain ⟨⟨e, he⟩, -⟩ := henforces.refuses pre h slot cb post hcs hopen
      refine Or.inr (Option.ne_none_iff_exists'.mp fun hnone => ?_)
      cases (queueFrame_of_none hnone).symm.trans he
  · intro hqueues
    refine ⟨fun pre h slot cb post hcs hclosed => ?_, fun pre post hcs h hclosed => ?_⟩
    · obtain ⟨e, he⟩ := (hqueues pre h slot cb post hcs).resolve_left hclosed
      obtain ⟨herror, hsame⟩ := queueFrame_of_some he
      exact ⟨⟨e, herror⟩, hsame⟩
    · have hbefore : QueuesInWindow (.configured config) pre :=
        fun pre' k slot cb post' hpre => hqueues pre' k slot cb (post' ++ post) (by simp [hcs, hpre])
      refine deliverFrame_of_none (Option.eq_none_iff_forall_ne_some.mpr fun w hw => ?_)
      exact hclosed (hbefore.captures h w hw)

/-- A frame queued on a new fake, where no capture was ever started, is accepted. -/
theorem not_enforcesWindow_queueFirst :
    (fakeVmbRuntime .new (.queueFrame ⟨⟨1, by decide⟩⟩ ⟨2⟩ ⟨3⟩)).1 = .ok () ∧
      ¬ EnforcesWindow .new [.queueFrame ⟨⟨1, by decide⟩⟩ ⟨2⟩ ⟨3⟩] := by
  have hok : (fakeVmbRuntime .new (.queueFrame ⟨⟨1, by decide⟩⟩ ⟨2⟩ ⟨3⟩)).1 = .ok () := rfl
  refine ⟨hok, fun h => ?_⟩
  obtain ⟨⟨e, he⟩, -⟩ := h.refuses [] _ _ _ [] rfl since_nil
  cases hok.symm.trans he

end Vmb.Fake

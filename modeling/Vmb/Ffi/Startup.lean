/-
# Vmb.Ffi.Startup -- startup and shutdown from several threads

`STARTED` and the SDK call it guards are separate steps on both paths of the adapter, so threads that
start and drop systems interleave between them. The flag admits one startup at a time, but `shutdown`
clears it before it calls `VmbShutdown`: a startup that falls in between calls `VmbStartup` too early,
and its system is shut down under its feet. `lawful_iff` says that this is the only way to go wrong.
-/
import Vmb.Ffi.Runtime
import Vmb.Lib.Pool
import Vmb.Lib.Since

namespace Vmb.Ffi

open Vmb.Lib Vmb.Core

/-! ## The threads -/

/-- `STARTED` and an SDK whose `VmbStartup` answers with `vmbStartup`. -/
def startedFlag {τ : Type} (vmbStartup : τ → Int32 × τ) : Machine Lifecycle (Bool × τ) := fun s c =>
  match c with
  | .compareExchange => (!s.1, (true, s.2))
  | .store => ((), (false, s.2))
  | .swap => (s.1, (false, s.2))
  | .vmbStartup => ((vmbStartup s.2).1, (s.1, (vmbStartup s.2).2))
  | .vmbShutdown => ((), s)

inductive SystemAction where
  | startup
  | drop
  deriving DecidableEq

/-- `VmbSystem::startup` of a thread without a system, and the drop of a system. A thread with
several systems is several threads here. -/
def SystemAction.perform : SystemAction → Bool → Prog Lifecycle (Result Unit × Bool)
  | .startup, false => do
    let r ← Ffi.startup
    pure (r, decide (r = .ok ()))
  | .drop, true => do
    shutdown
    pure (.ok (), false)
  | _, owned => pure (.ok (), owned)

/-- Threads that start and drop systems. -/
abbrev Systems (τ ι : Type) := Pool Lifecycle (Bool × τ) ι Bool (Result Unit)

/-- The startup of a system of the thread has returned `Ok`, and its drop has not begun. -/
def Live {τ ι : Type} (P : Systems τ ι) (t : ι) : Prop :=
  (P.threads t).object = true ∧ (P.threads t).running = none

/-! ## The law -/

section Law

variable {ι : Type}

/-- `VmbStartup` succeeds. -/
def startsSdk : ι × Event Lifecycle → Bool
  | (_, ⟨.vmbStartup, rc⟩) => rc = 0
  | _ => false

/-- `VmbShutdown` is called. -/
def stopsSdk : ι × Event Lifecycle → Bool
  | (_, ⟨.vmbShutdown, _⟩) => true
  | _ => false

/-- A successful `VmbStartup` has not been followed by a `VmbShutdown`. -/
def SdkStarted (log : List (ι × Event Lifecycle)) : Prop := Since (startsSdk ·) (stopsSdk ·) log

/-- So has one of the thread. -/
def SdkStartedBy (t : ι) (log : List (ι × Event Lifecycle)) : Prop :=
  Since (fun e => e.1 = t ∧ startsSdk e = true) (stopsSdk ·) log

/-- `VmbStartup` is called only while no earlier success is waiting for its `VmbShutdown`. -/
def Alternates (log : List (ι × Event Lifecycle)) : Prop :=
  Conforms (fun pre e => e.2.call = .vmbStartup → ¬ SdkStarted pre) log

/-- The calls alternate, and no live system has been shut down since it was created. -/
def Lawful {τ : Type} (P : Systems τ ι) : Prop :=
  Alternates P.log ∧ ∀ t, Live P t → SdkStartedBy t P.log

/-- The move is not a `VmbStartup` call while a thread is between its swap of `STARTED` and its
`VmbShutdown`. -/
def Undisturbed {τ : Type} (P : Systems τ ι) (mv : Move ι SystemAction) : Prop :=
  ∀ t, mv = .step t → P.Calls t .vmbStartup → ∀ u, ¬ P.Calls u .vmbShutdown

end Law

/-! ## Where a thread is -/

/-- Where a thread is between the steps of `startup` and `shutdown`. -/
inductive Phase where
  | out
  /-- It has set the flag and is about to call `VmbStartup`. -/
  | calling
  /-- `VmbStartup` failed and the flag is still set. -/
  | failing
  | owning
  /-- It has cleared the flag and is about to call `VmbShutdown`. -/
  | shutting
  deriving DecidableEq

namespace Phase

/-- The flag is set on behalf of the thread. -/
def Holds (ph : Phase) : Prop := ph = .calling ∨ ph = .failing ∨ ph = .owning

/-- The SDK has been started by the thread, and not shut down by it. -/
def Active (ph : Phase) : Prop := ph = .owning ∨ ph = .shutting

end Phase

/-- The phase a step is taken in. -/
def LifecycleStep.phase : LifecycleStep → Phase
  | .compareExchange => .out
  | .vmbStartup => .calling
  | .store => .failing
  | .swap => .owning
  | .vmbShutdown => .shutting

/-- The phase after a step. -/
def nextPhase (ph : Phase) : (c : LifecycleStep) → c.Resp → Phase
  | .compareExchange, exchanged => if exchanged then .calling else ph
  | .vmbStartup, rc => if rc = 0 then .owning else .failing
  | .store, _ => .out
  | .swap, started => if started then .shutting else .out
  | .vmbShutdown, _ => .out

/-- The order of the steps of a thread. -/
@[reducible] def lifecycle : Contract Lifecycle Phase := ⟨fun ph c => ph = c.phase, nextPhase⟩

/-- The phase of a thread between two operations. -/
def restsIn (owned : Bool) : Phase := if owned then .owning else .out

theorem startup_meets : Ffi.startup.Meets lifecycle
    (fun r ph => ph = restsIn (decide (r = .ok ()))) .out := by
  refine ⟨rfl, fun exchanged => ?_⟩
  cases exchanged with
  | false => rfl
  | true =>
      refine ⟨rfl, fun rc => ?_⟩
      by_cases hrc : rc = 0
      · subst hrc
        rfl
      · dsimp only [Prog.bind]
        rw [check_of_ne hrc]
        have hphase : nextPhase .calling .vmbStartup rc = .failing := if_neg hrc
        show Prog.Meets lifecycle _ _ (nextPhase .calling .vmbStartup rc)
        rw [hphase]
        exact ⟨rfl, fun _ => rfl⟩

theorem shutdown_meets : shutdown.Meets lifecycle (fun _ ph => ph = .out) .owning := by
  refine ⟨rfl, fun started => ?_⟩
  cases started with
  | false => rfl
  | true => exact ⟨rfl, fun _ => rfl⟩

theorem SystemAction.perform_meets (a : SystemAction) (owned : Bool) :
    (a.perform owned).Meets lifecycle (fun r ph => ph = restsIn r.2) (restsIn owned) := by
  cases a <;> cases owned
  · exact Prog.meets_bind.mpr (startup_meets.mono fun r ph hph => hph)
  · rfl
  · rfl
  · exact Prog.meets_bind.mpr (shutdown_meets.mono fun _ ph hph => hph)

/-! ## The invariant -/

section Invariant

variable {ι : Type} {b b' : Bool} {log : List (ι × Event Lifecycle)} {L : ι → Phase} {t : ι}

/-- The flag, the calls so far and the phases of the threads, while every move is undisturbed. -/
structure Paired (b : Bool) (log : List (ι × Event Lifecycle)) (L : ι → Phase) : Prop where
  flag : ∀ t, (L t).Holds → b = true
  holder : ∀ t u, (L t).Holds → (L u).Holds → t = u
  alternates : Alternates log
  started : SdkStarted log → ∃ t, (L t).Active
  startedBy : ∀ t, (L t).Active → SdkStartedBy t log
  active : ∀ t u, (L t).Active → (L u).Active → t = u

theorem paired_init : Paired false [] fun _ : ι => Phase.out where
  flag t h := by simp [Phase.Holds] at h
  holder t u h := by simp [Phase.Holds] at h
  alternates := conforms_nil
  started h := absurd h since_nil
  startedBy t h := by simp [Phase.Active] at h
  active t u h := by simp [Phase.Active] at h

theorem SdkStartedBy.sdkStarted (h : SdkStartedBy t log) : SdkStarted log := by
  obtain ⟨l₁, e, l₂, hl, he, hq⟩ := h
  exact ⟨l₁, e, l₂, hl, he.2, hq⟩

/-- No thread is active while another is about to call `VmbStartup` undisturbed. -/
theorem Paired.not_active (h : Paired b log L) (ht : L t = .calling)
    (hquiet : ∀ u, L u ≠ .shutting) (u : ι) : ¬ (L u).Active := by
  rintro (hu | hu)
  · have heq := h.holder t u (Or.inl ht) (Or.inr (Or.inr hu))
    rw [← heq, ht] at hu
    cases hu
  · exact hquiet u hu

variable [DecidableEq ι]

/-- What holds of a phase after the thread has moved held before, or holds of its new phase. -/
theorem update_cases {p : Phase → Prop} {ph : Phase} {u : ι} (h : p (Function.update L t ph u)) :
    (u = t ∧ p ph) ∨ (u ≠ t ∧ p (L u)) := by
  by_cases hu : u = t
  · subst hu
    rw [Function.update_self] at h
    exact Or.inl ⟨rfl, h⟩
  · rw [Function.update_of_ne hu] at h
    exact Or.inr ⟨hu, h⟩

/-- A step that neither starts nor stops the SDK, of a thread whose system is as active as before. -/
theorem Paired.neutral (h : Paired b log L) {e : Event Lifecycle} {ph : Phase}
    (hstart : startsSdk (t, e) = false) (hstop : stopsSdk (t, e) = false)
    (halt : e.call = .vmbStartup → ¬ SdkStarted log) (hactive : ph.Active ↔ (L t).Active)
    (hflag : ∀ u, (Function.update L t ph u).Holds → b' = true)
    (hholder : ∀ u w, (Function.update L t ph u).Holds → (Function.update L t ph w).Holds → u = w) :
    Paired b' (log ++ [(t, e)]) (Function.update L t ph) := by
  have hsame : ∀ u, (Function.update L t ph u).Active ↔ (L u).Active := by
    intro u
    by_cases hu : u = t
    · subst hu
      rw [Function.update_self]
      exact hactive
    · rw [Function.update_of_ne hu]
  refine ⟨hflag, hholder, conforms_append.mpr ⟨h.alternates, halt⟩, fun hs => ?_, fun u hu => ?_,
    fun u w hu hw => ?_⟩
  · obtain hnew | ⟨hold, -⟩ := since_append.mp hs
    · rw [hstart] at hnew
      exact absurd hnew Bool.false_ne_true
    · obtain ⟨u, hu⟩ := h.started hold
      exact ⟨u, (hsame u).mpr hu⟩
  · have hold := h.startedBy u ((hsame u).mp hu)
    exact Since.append hold (by simpa using hstop)
  · exact h.active u w ((hsame u).mp hu) ((hsame w).mp hw)

/-- A thread that holds the flag is the only one, so it may clear it. -/
theorem Paired.alone (h : Paired b log L) (ht : (L t).Holds) {ph : Phase} (hph : ¬ ph.Holds) (u : ι) :
    ¬ (Function.update L t ph u).Holds := by
  intro hu
  obtain ⟨-, hu⟩ | ⟨hne, hu⟩ := update_cases hu
  · exact hph hu
  · exact hne (h.holder u t hu ht)

/-- `compare_exchange` hands the flag to the thread if nobody has it, and else changes nothing. -/
theorem Paired.compareExchange (h : Paired b log L) (ht : L t = .out) :
    Paired true (log ++ [(t, ⟨.compareExchange, !b⟩)])
      (Function.update L t (if (!b) = true then .calling else L t)) := by
  rcases hb : b with - | -
  -- the flag was clear: nobody holds it, and the thread becomes the holder
  · have hnone : ∀ u, ¬ (L u).Holds := by
      intro u hu
      have hset := h.flag u hu
      rw [hb] at hset
      cases hset
    refine h.neutral rfl rfl (fun hcall => by cases hcall) ?_ (fun _ _ => rfl) fun u w hu hw => ?_
    · simp [ht, Phase.Active]
    · obtain ⟨rfl, -⟩ | ⟨-, hu⟩ := update_cases hu
      · obtain ⟨rfl, -⟩ | ⟨-, hw⟩ := update_cases hw
        · rfl
        · exact absurd hw (hnone w)
      · exact absurd hu (hnone u)
  -- the flag was set: the exchange fails and the phases stay as they are
  · have hsame : Function.update L t (if (!true) = true then Phase.calling else L t) = L :=
      Function.update_eq_self t L
    refine h.neutral rfl rfl (fun hcall => by cases hcall) Iff.rfl (fun _ _ => rfl) ?_
    rw [hsame]
    exact h.holder

/-- The thread that has the flag calls `VmbStartup` while nobody is inside the SDK's lifetime. -/
theorem Paired.vmbStartup (h : Paired b log L) (ht : L t = .calling) (hquiet : ∀ u, L u ≠ .shutting)
    (rc : Int32) :
    Paired b (log ++ [(t, ⟨.vmbStartup, rc⟩)])
      (Function.update L t (if rc = 0 then .owning else .failing)) := by
  have hnot := h.not_active ht hquiet
  have hclosed : ¬ SdkStarted log := by
    intro hs
    obtain ⟨u, hu⟩ := h.started hs
    exact hnot u hu
  have hflag : b = true := h.flag t (Or.inl ht)
  have hholder : ∀ ph u w, (Function.update L t ph u).Holds → (Function.update L t ph w).Holds →
      u = w := by
    have hthis : ∀ ph u, (Function.update L t ph u).Holds → u = t := by
      intro ph u hu
      obtain ⟨rfl, -⟩ | ⟨-, hu⟩ := update_cases hu
      · rfl
      · exact h.holder u t hu (Or.inl ht)
    intro ph u w hu hw
    exact (hthis ph u hu).trans (hthis ph w hw).symm
  by_cases hrc : rc = 0
  · rw [if_pos hrc, hrc]
    have hthis : ∀ u, (Function.update L t .owning u).Active → u = t := by
      intro u hu
      obtain ⟨rfl, -⟩ | ⟨-, hu⟩ := update_cases hu
      · rfl
      · exact absurd hu (hnot u)
    -- the thread becomes the only active one
    refine ⟨fun _ _ => hflag, hholder .owning, conforms_append.mpr ⟨h.alternates, fun _ => hclosed⟩,
      fun _ => ⟨t, by simp [Phase.Active]⟩, fun u hu => ?_, fun u w hu hw => ?_⟩
    · obtain rfl := hthis u hu
      exact since_append.mpr (Or.inl ⟨rfl, rfl⟩)
    · exact (hthis u hu).trans (hthis w hw).symm
  · rw [if_neg hrc]
    apply h.neutral (by simpa [startsSdk] using hrc) rfl (fun _ => hclosed) _ (fun _ _ => hflag)
      (hholder .failing)
    simp [ht, Phase.Active]

/-- A failed `startup` gives the flag back. -/
theorem Paired.store (h : Paired b log L) (ht : L t = .failing) :
    Paired false (log ++ [(t, ⟨.store, ()⟩)]) (Function.update L t .out) := by
  have halone : ∀ u, ¬ (Function.update L t .out u).Holds :=
    h.alone (Or.inr (Or.inl ht)) (by simp [Phase.Holds])
  apply h.neutral rfl rfl (fun hcall => by cases hcall) _ (fun u hu => absurd hu (halone u))
    fun u _ hu => absurd hu (halone u)
  simp [ht, Phase.Active]

/-- `swap` takes the flag from the owner, who then goes on to `VmbShutdown`. -/
theorem Paired.swap (h : Paired b log L) (ht : L t = .owning) :
    Paired false (log ++ [(t, ⟨.swap, b⟩)])
      (Function.update L t (if b = true then .shutting else .out)) := by
  have hset : b = true := h.flag t (Or.inr (Or.inr ht))
  rw [hset, if_pos rfl]
  have halone : ∀ u, ¬ (Function.update L t .shutting u).Holds :=
    h.alone (Or.inr (Or.inr ht)) (by simp [Phase.Holds])
  apply h.neutral rfl rfl (fun hcall => by cases hcall) _ (fun u hu => absurd hu (halone u))
    fun u _ hu => absurd hu (halone u)
  simp [ht, Phase.Active]

/-- The thread is the only active one, and it stops the SDK. -/
theorem Paired.vmbShutdown (h : Paired b log L) (ht : L t = .shutting) :
    Paired b (log ++ [(t, ⟨.vmbShutdown, ()⟩)]) (Function.update L t .out) := by
  have hnot : ∀ u, ¬ (Function.update L t .out u).Active := by
    intro u hu
    obtain ⟨-, hu⟩ | ⟨hne, hu⟩ := update_cases hu
    · simp [Phase.Active] at hu
    · exact hne (h.active u t hu (Or.inr ht))
  have hholds : ∀ u, (Function.update L t .out u).Holds → (L u).Holds := by
    intro u hu
    obtain ⟨-, hu⟩ | ⟨-, hu⟩ := update_cases hu
    · simp [Phase.Holds] at hu
    · exact hu
  refine ⟨fun u hu => h.flag u (hholds u hu), fun u w hu hw => h.holder u w (hholds u hu) (hholds w hw),
    conforms_append.mpr ⟨h.alternates, fun hcall => by cases hcall⟩, fun hs => ?_,
    fun u hu => absurd hu (hnot u), fun u _ hu => absurd hu (hnot u)⟩
  obtain hnew | ⟨-, hstop⟩ := since_append.mp hs
  · exact absurd hnew Bool.false_ne_true
  · exact absurd rfl hstop

/-- **An undisturbed step keeps the flag, the calls and the phases together.** -/
theorem Paired.step {τ : Type} {vmbStartup : τ → Int32 × τ} {s : Bool × τ} {c : LifecycleStep}
    (h : Paired s.1 log L) (hc : L t = c.phase)
    (hquiet : c = .vmbStartup → ∀ u, L u ≠ .shutting) :
    Paired (startedFlag vmbStartup s c).2.1 (log ++ [(t, ⟨c, (startedFlag vmbStartup s c).1⟩)])
      (Function.update L t (nextPhase (L t) c (startedFlag vmbStartup s c).1)) := by
  cases c with
  | compareExchange => exact h.compareExchange hc
  | vmbStartup => exact h.vmbStartup hc (hquiet rfl) (vmbStartup s.2).1
  | store => exact h.store hc
  | swap => exact h.swap hc
  | vmbShutdown => exact h.vmbShutdown hc

end Invariant

/-! ## Schedules -/

section Schedules

variable {τ ι : Type} [DecidableEq ι] {vmbStartup : τ → Int32 × τ} {P : Systems τ ι}

/-- Every thread is inside `startup` or `shutdown` in the right phase, and the phases fit. -/
structure Orderly (P : Systems τ ι) : Prop where
  sound : Pool.Sound lifecycle .out (fun _ _ => True) (fun owned ph => ph = restsIn owned)
    (fun _ => True) P
  paired : Paired P.shared.1 P.log (Pool.view lifecycle .out P.log)

theorem orderly_init (s : τ) : Orderly (Pool.init (false, s) false : Systems τ ι) where
  sound := Pool.sound_init rfl
  paired := paired_init

/-- A thread that is about to call `VmbShutdown` is `shutting`, and only such a thread is. -/
theorem Orderly.calls_vmbShutdown_iff (h : Orderly P) (u : ι) :
    P.Calls u .vmbShutdown ↔ Pool.view lifecycle .out P.log u = .shutting := by
  constructor
  · exact h.sound.pre
  -- a thread that is `shutting` is in the middle of an operation, and the next step is that call
  · intro hu
    rcases hrun : (P.threads u).running with - | ⟨⟨r, owned⟩ | ⟨c, k⟩⟩
    · have hrests := h.sound.resting u hrun
      rw [hu] at hrests
      rcases hobj : (P.threads u).object <;> rw [hobj] at hrests <;> cases hrests
    · have hrests := (h.sound.running u _ hrun).1
      rw [hu] at hrests
      cases owned <;> cases hrests
    · have hphase := (h.sound.running u _ hrun).1
      rw [hu] at hphase
      cases c <;> first | exact ⟨k, hrun⟩ | cases hphase

theorem Orderly.move (h : Orderly P) (mv : Move ι SystemAction) (hquiet : Undisturbed P mv) :
    Orderly (P.move (startedFlag vmbStartup) SystemAction.perform mv) := by
  refine ⟨h.sound.move mv (fun t a owned ph _ hph => ?_) fun _ _ _ _ => trivial, ?_⟩
  · subst hph
    exact ((a.perform_meets owned).mono fun r ph hph => ⟨hph, trivial⟩).ensures
  · obtain ⟨hshared, hlog⟩ | ⟨t, c, rfl, hcalls, hshared, hlog⟩ :=
      Pool.move_cases (startedFlag vmbStartup) SystemAction.perform P mv
    · rw [hshared, hlog]
      exact h.paired
    · rw [hshared, hlog, Pool.view_append]
      refine h.paired.step (h.sound.pre hcalls) fun hc u hu => ?_
      subst hc
      exact hquiet t rfl hcalls u ((h.calls_vmbShutdown_iff u).mpr hu)

theorem Orderly.lawful (h : Orderly P) : Lawful P := by
  refine ⟨h.paired.alternates, fun t hlive => ?_⟩
  have hrests := h.sound.resting t hlive.2
  rw [hlive.1] at hrests
  exact h.paired.startedBy t (Or.inl hrests)

theorem orderly_run (vmbStartup : τ → Int32 × τ) (s : τ) (moves : List (Move ι SystemAction))
    (hquiet : (Pool.init (false, s) false).Along (startedFlag vmbStartup) SystemAction.perform
      Undisturbed moves) :
    Orderly ((Pool.init (false, s) false).run (startedFlag vmbStartup) SystemAction.perform moves) :=
  Pool.run_invariant Orderly Undisturbed (fun _ mv hP hquiet => hP.move mv hquiet) _ moves
    (orderly_init s) hquiet

/-- **When startups and shutdowns alternate.** For every SDK and every schedule of any number of
threads, every state the schedule goes through is lawful exactly when every move is undisturbed. -/
theorem lawful_iff (vmbStartup : τ → Int32 × τ) (s : τ) (moves : List (Move ι SystemAction)) :
    (Pool.init (false, s) false).Throughout (startedFlag vmbStartup) SystemAction.perform Lawful moves ↔
      (Pool.init (false, s) false).Along (startedFlag vmbStartup) SystemAction.perform Undisturbed
        moves := by
  constructor
  · intro hlawful
    induction moves using List.reverseRecOn with
    | nil =>
        intro before mv hpre
        exact absurd (List.prefix_nil.mp hpre) (by simp)
    | append_singleton moves mv ih =>
        have hquiet := ih fun before hpre => hlawful before (hpre.trans (List.prefix_append _ _))
        intro before mv' hpre
        rcases List.prefix_concat_iff.mp hpre with heq | hpre
        · -- the last move: a disturbed one would call `VmbStartup` on a started SDK
          obtain ⟨rfl, hmv⟩ := List.append_inj' heq rfl
          obtain rfl : mv' = mv := by simpa using hmv
          intro t hmv hcalls u hu
          subst hmv
          have hP := orderly_run vmbStartup s before hquiet
          have hstarted := (hP.paired.startedBy u
            (Or.inr ((hP.calls_vmbShutdown_iff u).mp hu))).sdkStarted
          have halternates := (hlawful _ (List.prefix_refl _)).1
          obtain ⟨k, hk⟩ := hcalls
          rw [Pool.run_append] at halternates
          simp only [Pool.move, hk] at halternates
          exact (conforms_append.mp halternates).2 rfl hstarted
        · exact hquiet before mv' hpre
  · intro hquiet before hpre
    have horderly := orderly_run vmbStartup s before fun before' mv hpre' =>
      hquiet before' mv (hpre'.trans hpre)
    exact horderly.lawful

end Schedules

/-! ## The race -/

/-- A second thread starts a system while the first is dropping its own. -/
def restartDuringDrop : List (Move Nat SystemAction) :=
  [.invoke 0 .startup, .step 0, .step 0, .step 0, .invoke 0 .drop, .step 0,
    .invoke 1 .startup, .step 1, .step 1, .step 1, .step 0]

/-- The pool after it, with an SDK that always succeeds. -/
def restartedDuringDrop : Systems Unit Nat :=
  (Pool.init (false, ()) false).run (startedFlag fun t => (0, t)) SystemAction.perform
    restartDuringDrop

/-- `VmbStartup` is called on a started SDK, and the new system is shut down. -/
theorem not_lawful_restartDuringDrop :
    ¬ Alternates restartedDuringDrop.log ∧ Live restartedDuringDrop 1 ∧
      ¬ SdkStarted restartedDuringDrop.log := by
  refine ⟨fun h => ?_, ⟨rfl, rfl⟩, ?_⟩
  · have hstartup := h
      [(0, ⟨.compareExchange, true⟩), (0, ⟨.vmbStartup, 0⟩), (0, ⟨.swap, true⟩),
        (1, ⟨.compareExchange, true⟩)] (1, ⟨.vmbStartup, 0⟩) [(0, ⟨.vmbShutdown, ()⟩)] rfl rfl
    revert hstartup
    unfold SdkStarted
    decide
  · show ¬ SdkStarted
      [(0, ⟨.compareExchange, true⟩), (0, ⟨.vmbStartup, 0⟩), (0, ⟨.swap, true⟩),
        (1, ⟨.compareExchange, true⟩), (1, ⟨.vmbStartup, 0⟩), (0, ⟨.vmbShutdown, ()⟩)]
    unfold SdkStarted
    decide

end Vmb.Ffi

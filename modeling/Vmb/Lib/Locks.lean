/-
# Vmb.Lib.Locks -- threads that take locks

`Locking S μ` is the signature `S` with locks named by `μ`, and `Pool` runs threads over it; a thread
that asks for a lock another thread holds has to wait, and so may a call that waits for the `worker`
threads to come to rest (`Legal`). The discipline of a thread is that it holds at most one lock at a
time, gives it back before it is done, makes a guarded call under its lock only, and holds no lock
while it may have to wait (`lockDiscipline`).

Three things follow. What a lock guards is changed by nobody else while a thread holds it
(`Locked.stable`). No schedule ever gets stuck: from every state it can be continued until all threads
are at rest (`Locked.quiesces`). And with the locks left out, every schedule is one of the same programs
without locks (`Pool.unlocked_run`), so what holds in all interleavings of the latter holds here.
-/
import Mathlib.Data.Finite.Defs
import Mathlib.Data.Finset.Basic
import Vmb.Lib.Handler
import Vmb.Lib.Pool

namespace Vmb.Lib

variable {S : Signature} {α β σ ι μ A X R : Type}

/-! ## Programs with locks -/

/-- A call, or an operation on a lock. -/
inductive LockCall (S : Signature) (μ : Type) where
  | lock (l : μ)
  | unlock (l : μ)
  | call (c : S.Call)

@[reducible] def LockCall.Resp : LockCall S μ → Type
  | .call c => S.Resp c
  | _ => Unit

/-- `S` with locks. -/
@[reducible] def Locking (S : Signature) (μ : Type) : Signature := ⟨LockCall S μ, LockCall.Resp⟩

/-- `m`, with the locks that are held. -/
def Machine.locking [DecidableEq μ] (m : Machine S σ) : Machine (Locking S μ) (σ × Finset μ) :=
  fun s c =>
    match c with
    | .lock l => ((), (s.1, insert l s.2))
    | .unlock l => ((), (s.1, s.2.erase l))
    | .call c => ((m s.1 c).1, ((m s.1 c).2, s.2))

namespace Prog

/-- Make every call under its guard, and let the guard go at once. -/
def guarded (guard : S.Call → Option μ) : Prog S α → Prog (Locking S μ) α
  | .done a => .done a
  | .call c k =>
    match guard c with
    | none => .call (S := Locking S μ) (.call c) fun r => (k r).guarded guard
    | some l =>
      .call (S := Locking S μ) (.lock l) fun _ =>
        .call (S := Locking S μ) (.call c) fun r =>
          .call (S := Locking S μ) (.unlock l) fun _ => (k r).guarded guard

/-- The program without its locks. -/
def unlocked : Prog (Locking S μ) α → Prog S α
  | .done a => .done a
  | .call (.lock _) k => (k ()).unlocked
  | .call (.unlock _) k => (k ()).unlocked
  | .call (.call c) k => .call c fun r => (k r).unlocked

theorem unlocked_guarded (guard : S.Call → Option μ) (p : Prog S α) :
    (p.guarded guard).unlocked = p := by
  induction p with
  | done a => rfl
  | call c k ih =>
      rw [guarded]
      cases guard c with
      | none => exact congrArg _ (funext ih)
      | some l => exact congrArg _ (funext ih)

theorem unlocked_bind (p : Prog (Locking S μ) α) (f : α → Prog (Locking S μ) β) :
    (p >>= f).unlocked = p.unlocked >>= fun a => (f a).unlocked := by
  induction p with
  | done a => rfl
  | call c k ih =>
      cases c with
      | lock l => exact ih ()
      | unlock l => exact ih ()
      | call c => exact congrArg _ (funext ih)

theorem unlocked_through {T : Signature} {impl : (c : T.Call) → Prog (Locking S μ) (T.Resp c)}
    (p : Prog T α) : (p.through impl).unlocked = p.through fun c => (impl c).unlocked := by
  induction p with
  | done a => rfl
  | call c k ih =>
      rw [through_call, through_call, unlocked_bind]
      exact congrArg _ (funext ih)

end Prog

/-! ## The discipline -/

/-- What the locks are for: the lock a call is made under, and the calls that may have to wait for the
workers. -/
structure Conventions (S : Signature) (μ : Type) where
  guard : S.Call → Option μ
  waits : S.Call → Prop

/-- One lock at a time, held where it is needed and given back; and none while the thread may have to
wait. The view is the lock that is held. -/
def lockDiscipline (K : Conventions S μ) : Contract (Locking S μ) (Option μ) where
  pre v c :=
    match c with
    | .lock _ => v = none
    | .unlock l => v = some l
    | .call c => (∀ l, K.guard c = some l → v = some l) ∧ (K.waits c → v = none)
  next v c _ :=
    match c with
    | .lock l => some l
    | .unlock _ => none
    | .call _ => v

/-- The call does not have to wait for the workers. -/
def Conventions.Quick (K : Conventions S μ) : LockCall S μ → Prop
  | .call c => ¬ K.waits c
  | _ => True

/-- The program gives back what it takes. -/
def Prog.Disciplined (K : Conventions S μ) (p : Prog (Locking S μ) α) : Prop :=
  p.Meets (lockDiscipline K) (fun _ v => v = none) none

variable {K : Conventions S μ}

theorem Prog.Disciplined.bind {p : Prog (Locking S μ) α} {f : α → Prog (Locking S μ) β}
    (h : p.Disciplined K) (hf : ∀ a, (f a).Disciplined K) : (p >>= f).Disciplined K := by
  refine Prog.meets_bind.mpr (h.mono ?_)
  rintro a v rfl
  exact hf a

/-- A call under its guard is disciplined, if nothing under a guard has to wait. -/
theorem disciplined_guarded (hguard : ∀ c l, K.guard c = some l → ¬ K.waits c) (p : Prog S α) :
    (p.guarded K.guard).Disciplined K := by
  induction p with
  | done a => rfl
  | call c k ih =>
      rw [Prog.guarded]
      cases hc : K.guard c with
      | none =>
          refine ⟨⟨fun l hl => ?_, fun _ => rfl⟩, ih⟩
          rw [hc] at hl
          cases hl
      | some l =>
          refine ⟨rfl, fun _ => ⟨⟨fun l' hl' => ?_, fun hwaits => ?_⟩, fun r => ⟨rfl, fun _ => ih r⟩⟩⟩
          · rw [hc] at hl'
            exact hl'
          · exact absurd hwaits (hguard c l hc)

theorem Prog.Disciplined.through {T : Signature} {p : Prog T α}
    {impl : (c : T.Call) → Prog (Locking S μ) (T.Resp c)} (himpl : ∀ c, (impl c).Disciplined K) :
    (p.through impl).Disciplined K := by
  induction p with
  | done a => rfl
  | call c k ih => exact (himpl c).bind ih

theorem quick_guarded {p : Prog S α} (h : p.CallsOnly fun c => ¬ K.waits c) :
    (p.guarded K.guard).CallsOnly K.Quick := by
  induction p with
  | done a => trivial
  | call c k ih =>
      rw [Prog.guarded]
      cases K.guard c with
      | none => exact ⟨h.1, fun r => ih r (h.2 r)⟩
      | some l => exact ⟨trivial, fun _ => ⟨h.1, fun r => ⟨trivial, fun _ => ih r (h.2 r)⟩⟩⟩

/-! ## Pools of disciplined threads -/

section Pools

variable [DecidableEq ι] [DecidableEq μ] {m : Machine S σ}
  {perform : A → X → Prog (Locking S μ) (R × X)} {worker : ι → Prop} {calm : A → Prop}
  {P P' : Pool (Locking S μ) (σ × Finset μ) ι X R}

/-- The lock a thread holds. -/
def Pool.lockOf (K : Conventions S μ) (P : Pool (Locking S μ) (σ × Finset μ) ι X R) (t : ι) :
    Option μ :=
  Pool.view (lockDiscipline K) none P.log t

/-- No worker is inside an operation. -/
def Pool.Rested (worker : ι → Prop) (P : Pool (Locking S μ) (σ × Finset μ) ι X R) : Prop :=
  ∀ u, worker u → (P.threads u).running = none

/-- The lock the thread takes next. -/
def Pool.wants (P : Pool (Locking S μ) (σ × Finset μ) ι X R) (t : ι) : Option μ :=
  match P.nextCall t with
  | some (.lock l) => some l
  | _ => none

omit [DecidableEq ι] [DecidableEq μ] in
theorem Pool.mem_wants_iff {t : ι} {l : μ} : l ∈ P.wants t ↔ P.Calls t (.lock l) := by
  rw [← Pool.mem_nextCall_iff, Pool.wants]
  rcases P.nextCall t with - | (l' | l' | c) <;> simp

/-- A move that does not have to wait: the lock it takes is free, and the workers it waits for are at
rest. A worker begins calm operations only. -/
def Legal (K : Conventions S μ) (worker : ι → Prop) (calm : A → Prop)
    (P : Pool (Locking S μ) (σ × Finset μ) ι X R) : Move ι A → Prop
  | .invoke t a => worker t → calm a
  | .step t => (∀ l, P.Calls t (.lock l) → l ∉ P.shared.2) ∧
      ∀ c, P.Calls t (.call c) → K.waits c → P.Rested worker

/-- Every thread keeps the discipline, the locks that are held are held by one thread each, and the
workers do not wait. -/
structure Locked (K : Conventions S μ) (worker : ι → Prop)
    (P : Pool (Locking S μ) (σ × Finset μ) ι X R) : Prop where
  sound : P.Sound (lockDiscipline K) none (fun _ _ => True) (fun _ v => v = none) fun _ => True
  held : ∀ l, l ∈ P.shared.2 ↔ ∃ t, P.lockOf K t = some l
  alone : ∀ t u l, P.lockOf K t = some l → P.lockOf K u = some l → t = u
  quick : ∀ t p, worker t → (P.threads t).running = some p → p.CallsOnly K.Quick

omit [DecidableEq μ] in
theorem Locked.init {s : σ} {x : X} :
    Locked K worker (Pool.init (s, ∅) x : Pool (Locking S μ) (σ × Finset μ) ι X R) where
  sound := Pool.sound_init rfl
  held l := by
    constructor
    · intro hl
      exact absurd hl (Finset.notMem_empty l)
    · rintro ⟨t, ht⟩
      cases ht
  alone t u l ht := by cases ht
  quick t p _ hp := by cases hp

omit [DecidableEq μ] in
/-- A thread at rest holds no lock. -/
theorem Locked.resting (h : Locked K worker P) {t : ι} (ht : (P.threads t).running = none) :
    P.lockOf K t = none :=
  h.sound.resting t ht

omit [DecidableEq μ] in
theorem lockOf_append {t : ι} {e : Event (Locking S μ)} (hlog : P'.log = P.log ++ [(t, e)]) :
    P'.lockOf K =
      Function.update (P.lockOf K) t ((lockDiscipline K).next (P.lockOf K t) e.call e.resp) := by
  unfold Pool.lockOf
  rw [hlog]
  exact Pool.view_append (lockDiscipline K) none P.log t e

/-- **A call keeps the locks apart.** -/
theorem Locked.call (h : Locked K worker P) {t : ι} {c : (Locking S μ).Call} (hcalls : P.Calls t c)
    (hfree : ∀ l, c = .lock l → l ∉ P.shared.2) (hshared : P'.shared = (m.locking P.shared c).2)
    (hlog : P'.log = P.log ++ [(t, ⟨c, (m.locking P.shared c).1⟩)]) :
    (∀ l, l ∈ P'.shared.2 ↔ ∃ u, P'.lockOf K u = some l) ∧
      ∀ u u' l, P'.lockOf K u = some l → P'.lockOf K u' = some l → u = u' := by
  have hpre := h.sound.pre hcalls
  have hlocks := lockOf_append (K := K) hlog
  rw [hlocks, hshared]
  cases c with
  | lock l =>
      have hnone : P.lockOf K t = none := hpre
      have hl := hfree l rfl
      have hnobody : ∀ u, P.lockOf K u ≠ some l := fun u hu => hl ((h.held l).mpr ⟨u, hu⟩)
      refine ⟨fun l' => ?_, fun u u' l' hu hu' => ?_⟩
      · rw [show (m.locking P.shared (.lock l)).2.2 = insert l P.shared.2 from rfl,
          Finset.mem_insert, h.held l']
        constructor
        · rintro (rfl | ⟨u, hu⟩)
          · exact ⟨t, Function.update_self ..⟩
          · have hne : u ≠ t := by
              rintro rfl
              rw [hnone] at hu
              cases hu
            exact ⟨u, by rw [Function.update_of_ne hne]; exact hu⟩
        · rintro ⟨u, hu⟩
          rcases eq_or_ne u t with rfl | hne
          · rw [Function.update_self] at hu
            exact Or.inl (Option.some.inj hu).symm
          · rw [Function.update_of_ne hne] at hu
            exact Or.inr ⟨u, hu⟩
      · rcases eq_or_ne u t with rfl | hne <;> rcases eq_or_ne u' u with rfl | hne'
        · rfl
        · rw [Function.update_self] at hu
          rw [Function.update_of_ne hne'] at hu'
          cases hu
          exact absurd hu' (hnobody u')
        · rfl
        · rw [Function.update_of_ne hne] at hu
          rcases eq_or_ne u' t with rfl | hne''
          · rw [Function.update_self] at hu'
            cases hu'
            exact absurd hu (hnobody u)
          · rw [Function.update_of_ne hne''] at hu'
            exact h.alone u u' l' hu hu'
  | unlock l =>
      have hsome : P.lockOf K t = some l := hpre
      refine ⟨fun l' => ?_, fun u u' l' hu hu' => ?_⟩
      · rw [show (m.locking P.shared (.unlock l)).2.2 = P.shared.2.erase l from rfl,
          Finset.mem_erase, h.held l']
        constructor
        · rintro ⟨hne, u, hu⟩
          have hut : u ≠ t := by
            rintro rfl
            rw [hsome] at hu
            exact hne (Option.some.inj hu).symm
          exact ⟨u, by rw [Function.update_of_ne hut]; exact hu⟩
        · rintro ⟨u, hu⟩
          rcases eq_or_ne u t with rfl | hne
          · rw [Function.update_self] at hu
            cases hu
          · rw [Function.update_of_ne hne] at hu
            refine ⟨?_, u, hu⟩
            rintro rfl
            exact hne (h.alone u t l' hu hsome)
      · have hof : ∀ v, Function.update (P.lockOf K) t none v = some l' → P.lockOf K v = some l' := by
          intro v hv
          rcases eq_or_ne v t with rfl | hne
          · rw [Function.update_self] at hv
            cases hv
          · rwa [Function.update_of_ne hne] at hv
        exact h.alone u u' l' (hof u hu) (hof u' hu')
  | call c =>
      have hsame : Function.update (P.lockOf K) t (P.lockOf K t) = P.lockOf K :=
        Function.update_eq_self t _
      rw [show (lockDiscipline K).next (P.lockOf K t) (.call c) _ = P.lockOf K t from rfl, hsame]
      exact ⟨h.held, h.alone⟩

omit [DecidableEq ι] in
/-- A thread has one next step. -/
theorem Pool.Calls.unique {P : Pool S σ ι X R} {t : ι} {c c' : S.Call} {k : S.Resp c → Prog S (R × X)}
    (hrun : (P.threads t).running = some (.call c k)) (hc : P.Calls t c') : c' = c := by
  obtain ⟨k', hk⟩ := hc
  rw [hrun] at hk
  cases hk
  rfl

/-- The step of a thread that makes a call. -/
theorem Pool.move_call {m : Machine S σ} {perform : A → X → Prog S (R × X)} {P : Pool S σ ι X R}
    {t : ι} {c : S.Call} {k : S.Resp c → Prog S (R × X)}
    (hrun : (P.threads t).running = some (.call c k)) :
    P.move m perform (.step t) =
      ⟨(m P.shared c).2,
        Function.update P.threads t { P.threads t with running := some (k (m P.shared c).1) },
        P.log ++ [(t, ⟨c, (m P.shared c).1⟩)]⟩ := by
  simp only [Pool.move, hrun]

/-- What a thread is inside of after a move: what it was inside of, an operation that has just begun,
or the rest of one after a call. -/
theorem Pool.running_move {m : Machine S σ} {perform : A → X → Prog S (R × X)} {P : Pool S σ ι X R}
    {mv : Move ι A} {t : ι} {p : Prog S (R × X)}
    (hp : ((P.move m perform mv).threads t).running = some p) :
    (P.threads t).running = some p ∨
      (∃ a, mv = .invoke t a ∧ p = perform a (P.threads t).object) ∨
      ∃ c k, mv = .step t ∧ (P.threads t).running = some (.call c k) ∧ p = k (m P.shared c).1 := by
  cases mv with
  | invoke u a =>
      simp only [Pool.move] at hp
      rcases hrun : (P.threads u).running with - | q
      · rw [hrun] at hp
        rcases eq_or_ne t u with rfl | hne
        · dsimp only at hp
          rw [Function.update_self] at hp
          exact Or.inr (Or.inl ⟨a, rfl, (Option.some.inj hp).symm⟩)
        · dsimp only at hp
          rw [Function.update_of_ne hne] at hp
          exact Or.inl hp
      · rw [hrun] at hp
        exact Or.inl hp
  | step u =>
      simp only [Pool.move] at hp
      rcases hrun : (P.threads u).running with - | ⟨⟨r, x⟩ | ⟨c, k⟩⟩
      · rw [hrun] at hp
        exact Or.inl hp
      · rw [hrun] at hp
        dsimp only at hp
        rcases eq_or_ne t u with rfl | hne
        · rw [Function.update_self] at hp
          cases hp
        · rw [Function.update_of_ne hne] at hp
          exact Or.inl hp
      · rw [hrun] at hp
        dsimp only at hp
        rcases eq_or_ne t u with rfl | hne
        · rw [Function.update_self] at hp
          exact Or.inr (Or.inr ⟨c, k, rfl, hrun, (Option.some.inj hp).symm⟩)
        · rw [Function.update_of_ne hne] at hp
          exact Or.inl hp

/-- **A move that does not have to wait keeps the discipline**, if every operation does and those of
the workers do not wait. -/
theorem Locked.move (h : Locked K worker P) {mv : Move ι A} (hlegal : Legal K worker calm P mv)
    (hperform : ∀ a x, (perform a x).Disciplined K)
    (hcalm : ∀ a x, calm a → (perform a x).CallsOnly K.Quick) :
    Locked K worker (P.move m.locking perform mv) := by
  have hsound : (P.move m.locking perform mv).Sound (lockDiscipline K) none (fun _ _ => True)
      (fun _ v => v = none) fun _ => True := by
    refine h.sound.move mv (fun t a x v _ hv => ?_) fun _ _ _ _ => trivial
    subst hv
    exact (hperform a x).ensures.mono fun _ _ hv => ⟨hv, trivial⟩
  have hlocks : (∀ l, l ∈ (P.move m.locking perform mv).shared.2 ↔
      ∃ u, (P.move m.locking perform mv).lockOf K u = some l) ∧
      ∀ u u' l, (P.move m.locking perform mv).lockOf K u = some l →
        (P.move m.locking perform mv).lockOf K u' = some l → u = u' := by
    rcases P.move_cases m.locking perform mv with ⟨hshared, hlog⟩ | ⟨t, c, rfl, hcalls, hshared, hlog⟩
    · unfold Pool.lockOf
      rw [hshared, hlog]
      exact ⟨h.held, h.alone⟩
    · refine h.call hcalls (fun l hl => ?_) hshared hlog
      subst hl
      exact hlegal.1 l hcalls
  refine ⟨hsound, hlocks.1, hlocks.2, fun t p hworker hp => ?_⟩
  rcases Pool.running_move hp with hp | ⟨a, rfl, rfl⟩ | ⟨c, k, rfl, hrun, rfl⟩
  · exact h.quick t p hworker hp
  · exact hcalm a _ (hlegal hworker)
  · exact (h.quick t _ hworker hrun).2 _

theorem Locked.run (h : Locked K worker P) (hperform : ∀ a x, (perform a x).Disciplined K)
    (hcalm : ∀ a x, calm a → (perform a x).CallsOnly K.Quick) {moves : List (Move ι A)}
    (hlegal : P.Along m.locking perform (Legal K worker calm) moves) :
    Locked K worker (P.run m.locking perform moves) :=
  Pool.run_invariant (Locked K worker) (Legal K worker calm)
    (fun _ _ h hlegal => h.move hlegal hperform hcalm) P moves h hlegal

/-- **What a lock guards stays as it is while a thread holds the lock**, whatever the others do. -/
theorem Locked.stable (h : Locked K worker P) {t : ι} {l : μ} (hl : P.lockOf K t = some l)
    (part : σ → β) (hpart : ∀ s c, K.guard c ≠ some l → part (m s c).2 = part s) {mv : Move ι A}
    (hmv : mv ≠ .step t) : part (P.move m.locking perform mv).shared.1 = part P.shared.1 := by
  rcases P.move_cases m.locking perform mv with ⟨hshared, -⟩ | ⟨u, c, rfl, hcalls, hshared, -⟩
  · rw [hshared]
  · rw [hshared]
    cases c with
    | lock l' => rfl
    | unlock l' => rfl
    | call c =>
        refine hpart P.shared.1 c fun hguard => hmv ?_
        have hu : P.lockOf K u = some l := (h.sound.pre hcalls).1 l hguard
        rw [h.alone u t l hu hl]

end Pools

/-! ## Leaving the locks out -/

def Event.unlocked : Event (Locking S μ) → Option (Event S)
  | ⟨.call c, r⟩ => some ⟨c, r⟩
  | _ => none

def Thread.unlocked (thread : Thread (Locking S μ) X R) : Thread S X R :=
  ⟨thread.object, thread.results, thread.running.map Prog.unlocked⟩

/-- The pool without its locks. -/
def Pool.unlocked (P : Pool (Locking S μ) (σ × Finset μ) ι X R) : Pool S σ ι X R where
  shared := P.shared.1
  threads t := (P.threads t).unlocked
  log := P.log.filterMap fun e => e.2.unlocked.map fun e' => (e.1, e')

section Erasure

variable [DecidableEq ι] [DecidableEq μ] {m : Machine S σ}
  {perform : A → X → Prog (Locking S μ) (R × X)}

omit [DecidableEq μ] in
theorem Pool.unlocked_update (P : Pool (Locking S μ) (σ × Finset μ) ι X R) (t : ι)
    (thread : Thread (Locking S μ) X R) :
    (fun u => (Function.update P.threads t thread u).unlocked) =
      Function.update P.unlocked.threads t thread.unlocked := by
  funext u
  rcases eq_or_ne u t with rfl | hne
  · rw [Function.update_self, Function.update_self]
  · rw [Function.update_of_ne hne, Function.update_of_ne hne]
    rfl

/-- An operation on a lock is nothing without the locks. -/
theorem Pool.unlocked_stutter {P : Pool (Locking S μ) (σ × Finset μ) ι X R} {t : ι}
    {c : (Locking S μ).Call} {k : (Locking S μ).Resp c → Prog (Locking S μ) (R × X)}
    (hrun : (P.threads t).running = some (.call c k))
    (hshared : (m.locking P.shared c).2.1 = P.shared.1)
    (hk : (k (m.locking P.shared c).1).unlocked = (Prog.call c k).unlocked)
    (hevent : Event.unlocked ⟨c, (m.locking P.shared c).1⟩ = none) :
    (P.move m.locking perform (.step t)).unlocked = P.unlocked := by
  rw [Pool.move_call hrun]
  unfold Pool.unlocked
  rw [Pool.mk.injEq]
  refine ⟨hshared, ?_, ?_⟩
  · rw [P.unlocked_update t]
    have hthread : Thread.unlocked { P.threads t with running := some (k (m.locking P.shared c).1) } =
        (P.threads t).unlocked := by
      unfold Thread.unlocked
      rw [hrun, Option.map_some, Option.map_some, hk]
    rw [hthread]
    exact Function.update_eq_self t _
  · rw [List.filterMap_append]
    simp [hevent]

variable (m perform) in
/-- Without the locks, a move is the same move, or nothing happens. -/
theorem Pool.unlocked_move (P : Pool (Locking S μ) (σ × Finset μ) ι X R) (mv : Move ι A) :
    (P.move m.locking perform mv).unlocked = P.unlocked ∨
      (P.move m.locking perform mv).unlocked =
        P.unlocked.move m (fun a x => (perform a x).unlocked) mv := by
  cases mv with
  | invoke t a =>
      rcases hrun : (P.threads t).running with - | q
      · right
        have hrun' : (P.unlocked.threads t).running = none := congrArg (Option.map Prog.unlocked) hrun
        simp only [Pool.move, hrun, hrun']
        rw [Pool.mk.injEq]
        exact ⟨rfl, P.unlocked_update t _, rfl⟩
      · left
        simp only [Pool.move, hrun]
  | step t =>
      have hunlocked : (P.unlocked.threads t).running = (P.threads t).running.map Prog.unlocked := rfl
      rcases hrun : (P.threads t).running with - | ⟨⟨r, x⟩ | ⟨c, k⟩⟩
      · left
        simp only [Pool.move, hrun]
      · right
        rw [hrun] at hunlocked
        simp only [Pool.move, hrun, hunlocked, Option.map_some, Prog.unlocked]
        rw [Pool.mk.injEq]
        exact ⟨rfl, P.unlocked_update t _, rfl⟩
      · cases c with
        | lock l => exact Or.inl (Pool.unlocked_stutter hrun rfl rfl rfl)
        | unlock l => exact Or.inl (Pool.unlocked_stutter hrun rfl rfl rfl)
        | call c =>
            right
            rw [hrun] at hunlocked
            rw [Pool.move_call hrun, Pool.move_call hunlocked]
            unfold Pool.unlocked
            rw [Pool.mk.injEq]
            refine ⟨rfl, P.unlocked_update t _, ?_⟩
            rw [List.filterMap_append]
            rfl

/-- **Every schedule is one of the programs without their locks**, less the moves on locks. -/
theorem Pool.unlocked_run (P : Pool (Locking S μ) (σ × Finset μ) ι X R)
    (perform : A → X → Prog (Locking S μ) (R × X)) (moves : List (Move ι A)) :
    ∃ moves' : List (Move ι A), moves'.Sublist moves ∧
      (P.run m.locking perform moves).unlocked =
        P.unlocked.run m (fun a x => (perform a x).unlocked) moves' := by
  induction moves using List.reverseRecOn with
  | nil => exact ⟨[], List.Sublist.slnil, rfl⟩
  | append_singleton moves mv ih =>
      obtain ⟨moves', hsub, hrun⟩ := ih
      rw [Pool.run_append]
      rcases Pool.unlocked_move m perform (P.run m.locking perform moves) mv with h | h
      · exact ⟨moves', hsub.trans (List.sublist_append_left _ _), h.trans hrun⟩
      · refine ⟨moves' ++ [mv], hsub.append (List.Sublist.refl _), ?_⟩
        rw [h, hrun, Pool.run_append]

end Erasure

end Vmb.Lib

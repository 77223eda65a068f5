/-
# Vmb.Lib.Pool -- threads that share a machine

Each thread of a `Pool` owns a local object and works on it one operation at a time; an operation is
a program, and its calls are answered by the one machine all threads share. A schedule is a list of
moves: a thread begins an operation, or takes the next step of the one it is in. Nothing else is
assumed about the scheduler, so a property of all schedules is a property of all interleavings at
the granularity of single calls.

The rules are those of `Vmb.Lib.Contract` with other threads in between. A thread's view is what its
own calls and answers have made of it (`Pool.view`), so the moves of others cannot change it; `Sound`
says that every thread is inside a program that meets the contract from its view, and `Sound.move`
that a move keeps this as long as the answer it gets is one the thread relies on.
-/
import Mathlib.Data.List.Infix
import Vmb.Lib.Contract
import Vmb.Lib.Handler

namespace Vmb.Lib

variable {S : Signature} {α β ν σ ι A X R : Type}

/-! ## Programs that rely on their answers -/

namespace Prog

/-- `Meets`, for answers in `rely` only. -/
def Ensures (C : Contract S ν) (rely : (c : S.Call) → S.Resp c → Prop) (Q : α → ν → Prop) :
    Prog S α → ν → Prop
  | .done a, v => Q a v
  | .call c k, v => C.pre v c ∧ ∀ r, rely c r → (k r).Ensures C rely Q (C.next v c r)

variable {C : Contract S ν} {rely : (c : S.Call) → S.Resp c → Prop} {Q Q' : α → ν → Prop}
  {p : Prog S α} {v : ν}

theorem Meets.ensures (h : p.Meets C Q v) : p.Ensures C rely Q v := by
  induction p generalizing v with
  | done a => exact h
  | call c k ih => exact ⟨h.1, fun r _ => ih r (h.2 r)⟩

theorem Ensures.mono (h : p.Ensures C rely Q v) (hQ : ∀ a v', Q a v' → Q' a v') :
    p.Ensures C rely Q' v := by
  induction p generalizing v with
  | done a => exact hQ a v h
  | call c k ih => exact ⟨h.1, fun r hr => ih r (h.2 r hr)⟩

/-- A contract that allows more. -/
theorem Ensures.weaken {pre' : ν → S.Call → Prop} (h : p.Ensures C rely Q v)
    (hpre : ∀ v c, C.pre v c → pre' v c) : p.Ensures ⟨pre', C.next⟩ rely Q v := by
  induction p generalizing v with
  | done a => exact h
  | call c k ih => exact ⟨hpre v c h.1, fun r hr => ih r (h.2 r hr)⟩

theorem ensures_bind {f : α → Prog S β} {Q : β → ν → Prop} :
    (p >>= f).Ensures C rely Q v ↔ p.Ensures C rely (fun a v' => (f a).Ensures C rely Q v') v := by
  induction p generalizing v with
  | done a => rfl
  | call c k ih => exact and_congr_right fun _ => forall_congr' fun r => imp_congr_right fun _ => ih r

/-- What holds of every result under the rely alone may be added to what a contract ensures. -/
theorem Ensures.and_free {P : α → Prop} (h : p.Ensures C rely Q v)
    (hP : p.Ensures (.free S) rely (fun a _ => P a) ()) :
    p.Ensures C rely (fun a v' => Q a v' ∧ P a) v := by
  induction p generalizing v with
  | done a => exact ⟨h, hP⟩
  | call c k ih => exact ⟨h.1, fun r hr => ih r (h.2 r hr) (hP.2 r hr)⟩

/-- Calls that lead from a view back to it make a program that does, whatever implements them. -/
theorem CallsOnly.ensures_through {T : Signature} {K : T.Call → Prop}
    {impl : (c : T.Call) → Prog S (T.Resp c)} {p : Prog T α} (h : p.CallsOnly K)
    (himpl : ∀ c, K c → (impl c).Ensures C rely (fun _ v' => v' = v) v) :
    (p.through impl).Ensures C rely (fun _ v' => v' = v) v := by
  induction p with
  | done a => rfl
  | call c k ih =>
      refine ensures_bind.mpr ((himpl c h.1).mono ?_)
      rintro r v' rfl
      exact ih r (h.2 r)

end Prog

/-! ## Pools -/

/-- A thread: its object, the results of its finished operations, and the rest of the operation it
is in. -/
structure Thread (S : Signature) (X R : Type) where
  object : X
  results : List R
  running : Option (Prog S (R × X))

/-- Threads over a shared machine state, and the calls they have made. -/
structure Pool (S : Signature) (σ ι X R : Type) where
  shared : σ
  threads : ι → Thread S X R
  log : List (ι × Event S)

/-- What happens next: a thread begins an operation, or takes a step of the one it is in. -/
inductive Move (ι A : Type) where
  | invoke (t : ι) (a : A)
  | step (t : ι)
  deriving DecidableEq

namespace Pool

/-- No operation has begun, and every thread owns `x`. -/
def init (s : σ) (x : X) : Pool S σ ι X R := ⟨s, fun _ => ⟨x, [], none⟩, []⟩

/-- The next step of the thread is the call `c`. -/
def Calls (P : Pool S σ ι X R) (t : ι) (c : S.Call) : Prop :=
  ∃ k, (P.threads t).running = some (.call c k)

/-- The next call of the thread, if its next step is one. -/
def nextCall (P : Pool S σ ι X R) (t : ι) : Option S.Call :=
  match (P.threads t).running with
  | some (.call c _) => some c
  | _ => none

theorem mem_nextCall_iff {P : Pool S σ ι X R} {t : ι} {c : S.Call} :
    c ∈ P.nextCall t ↔ P.Calls t c := by
  unfold nextCall Calls
  rcases (P.threads t).running with - | ⟨⟨r, x⟩ | ⟨c', k⟩⟩
  · simp
  · simp
  · simp only [Option.mem_some_iff, Option.some.injEq]
    constructor
    · rintro rfl
      exact ⟨k, rfl⟩
    · rintro ⟨k', hk⟩
      cases hk
      rfl

/-- What the calls of a thread and their answers have made of its view. -/
def view [DecidableEq ι] (C : Contract S ν) (v₀ : ν) (log : List (ι × Event S)) (t : ι) : ν :=
  (log.filter fun e => e.1 = t).foldl (fun v e => C.next v e.2.call e.2.resp) v₀

variable [DecidableEq ι] (m : Machine S σ) (perform : A → X → Prog S (R × X))

/-- One move. A thread inside an operation cannot begin another, and one outside has no step to
take. -/
def move (P : Pool S σ ι X R) : Move ι A → Pool S σ ι X R
  | .invoke t a =>
    match (P.threads t).running with
    | some _ => P
    | none =>
      let running := some (perform a (P.threads t).object)
      { P with threads := Function.update P.threads t { P.threads t with running := running } }
  | .step t =>
    match (P.threads t).running with
    | none => P
    | some (.done (r, x)) =>
      { P with threads := Function.update P.threads t ⟨x, (P.threads t).results ++ [r], none⟩ }
    -- the only move that touches the shared machine
    | some (.call c k) =>
      let (r, shared) := m P.shared c
      let thread := { P.threads t with running := some (k r) }
      ⟨shared, Function.update P.threads t thread, P.log ++ [(t, ⟨c, r⟩)]⟩

/-- A schedule. -/
def run (P : Pool S σ ι X R) (moves : List (Move ι A)) : Pool S σ ι X R :=
  moves.foldl (fun P mv => P.move m perform mv) P

/-- Every move of the schedule is `ok` in the pool it is made in. -/
def Along (P : Pool S σ ι X R) (ok : Pool S σ ι X R → Move ι A → Prop) (moves : List (Move ι A)) :
    Prop :=
  ∀ before mv, before ++ [mv] <+: moves → ok (P.run m perform before) mv

/-- Every pool the schedule goes through is in `I`. -/
def Throughout (P : Pool S σ ι X R) (I : Pool S σ ι X R → Prop) (moves : List (Move ι A)) : Prop :=
  ∀ before, before <+: moves → I (P.run m perform before)

variable {m perform} {P : Pool S σ ι X R} {C : Contract S ν} {v₀ : ν}
  {rely : (c : S.Call) → S.Resp c → Prop} {Q : X → ν → Prop} {good : R → Prop}

theorem run_append (P : Pool S σ ι X R) (moves : List (Move ι A)) (mv : Move ι A) :
    P.run m perform (moves ++ [mv]) = (P.run m perform moves).move m perform mv := by
  simp [run]

theorem along_cons {ok : Pool S σ ι X R → Move ι A → Prop} {mv : Move ι A}
    {moves : List (Move ι A)} :
    P.Along m perform ok (mv :: moves) ↔
      ok P mv ∧ (P.move m perform mv).Along m perform ok moves := by
  constructor
  · intro h
    refine ⟨h [] mv (by simp), fun before mv' hpre => h (mv :: before) mv' ?_⟩
    exact List.cons_prefix_cons.mpr ⟨rfl, hpre⟩
  · rintro ⟨hmv, h⟩ before mv' hpre
    cases before with
    -- the first move of the schedule
    | nil =>
        obtain rfl := (List.cons_prefix_cons.mp hpre).1
        exact hmv
    | cons mv'' before =>
        obtain ⟨rfl, hpre'⟩ := List.cons_prefix_cons.mp hpre
        exact h before mv' hpre'

instance decidableAlong {ok : Pool S σ ι X R → Move ι A → Prop} [∀ P mv, Decidable (ok P mv)] :
    ∀ (P : Pool S σ ι X R) (moves : List (Move ι A)), Decidable (P.Along m perform ok moves)
  | _, [] => isTrue fun _ _ hpre => absurd (List.prefix_nil.mp hpre) (by simp)
  | P, mv :: moves =>
    haveI : Decidable ((P.move m perform mv).Along m perform ok moves) := decidableAlong _ moves
    decidable_of_iff _ along_cons.symm

/-- The run lemma: what every move preserves, from pools in which it is `ok`, holds at the end of a
schedule whose moves are all `ok`. -/
theorem run_invariant (I : Pool S σ ι X R → Prop) (ok : Pool S σ ι X R → Move ι A → Prop)
    (hmove : ∀ P mv, I P → ok P mv → I (P.move m perform mv)) (P : Pool S σ ι X R)
    (moves : List (Move ι A)) (hP : I P) (hok : P.Along m perform ok moves) :
    I (P.run m perform moves) := by
  induction moves using List.reverseRecOn with
  | nil => exact hP
  | append_singleton moves mv ih =>
      rw [run_append]
      refine hmove _ mv (ih fun before mv' hpre => ?_) (hok moves mv (List.prefix_refl _))
      exact hok before mv' (hpre.trans (List.prefix_append _ _))

/-- A move makes no call, or the next one of a thread. -/
theorem move_cases (m : Machine S σ) (perform : A → X → Prog S (R × X)) (P : Pool S σ ι X R)
    (mv : Move ι A) :
    ((P.move m perform mv).shared = P.shared ∧ (P.move m perform mv).log = P.log) ∨
      ∃ t c, mv = .step t ∧ P.Calls t c ∧ (P.move m perform mv).shared = (m P.shared c).2 ∧
        (P.move m perform mv).log = P.log ++ [(t, ⟨c, (m P.shared c).1⟩)] := by
  cases mv with
  | invoke t a =>
      left
      simp only [move]
      split <;> exact ⟨rfl, rfl⟩
  | step t =>
      simp only [move]
      rcases hrun : (P.threads t).running with - | ⟨⟨r, x⟩ | ⟨c, k⟩⟩
      · exact Or.inl ⟨rfl, rfl⟩
      · exact Or.inl ⟨rfl, rfl⟩
      · exact Or.inr ⟨t, c, rfl, ⟨k, hrun⟩, rfl, rfl⟩

/-- The call a thread makes is answered by the shared machine. -/
theorem log_of_calls {t : ι} {c : S.Call} (hc : P.Calls t c) :
    (P.move m perform (.step t)).log = P.log ++ [(t, ⟨c, (m P.shared c).1⟩)] := by
  obtain ⟨k, hk⟩ := hc
  simp only [move, hk]

/-- The log only grows. -/
theorem log_move (m : Machine S σ) (perform : A → X → Prog S (R × X)) (P : Pool S σ ι X R)
    (mv : Move ι A) : ∃ new, (P.move m perform mv).log = P.log ++ new := by
  rcases P.move_cases m perform mv with ⟨-, hlog⟩ | ⟨t, c, -, -, -, hlog⟩
  · exact ⟨[], hlog.trans (List.append_nil _).symm⟩
  · exact ⟨_, hlog⟩

theorem view_append (C : Contract S ν) (v₀ : ν) (log : List (ι × Event S)) (t : ι) (e : Event S) :
    view C v₀ (log ++ [(t, e)]) =
      Function.update (view C v₀ log) t (C.next (view C v₀ log t) e.call e.resp) := by
  funext u
  by_cases hu : u = t
  · subst hu
    simp [view]
  · rw [Function.update_of_ne hu]
    simp [view, Ne.symm hu]

/-! ## Threads that meet a contract -/

variable (C v₀ rely Q good) in
/-- Every thread is between two operations with a view in `Q`, or inside a program that leads there;
and every result so far is `good`. -/
structure Sound (P : Pool S σ ι X R) : Prop where
  resting : ∀ t, (P.threads t).running = none → Q (P.threads t).object (view C v₀ P.log t)
  running : ∀ t p, (P.threads t).running = some p →
    p.Ensures C rely (fun r v => Q r.2 v ∧ good r.1) (view C v₀ P.log t)
  results : ∀ t, ∀ r ∈ (P.threads t).results, good r

theorem sound_init {s : σ} {x : X} (h : Q x v₀) :
    Sound C v₀ rely Q good (init s x : Pool S σ ι X R) where
  resting t _ := h
  running t p hp := by cases hp
  results t r hr := absurd hr List.not_mem_nil

/-- A thread makes only the calls its view allows. -/
theorem Sound.pre (h : Sound C v₀ rely Q good P) {t : ι} {c : S.Call} (hc : P.Calls t c) :
    C.pre (view C v₀ P.log t) c := by
  obtain ⟨k, hk⟩ := hc
  exact (h.running t _ hk).1

/-- A contract that allows more makes the same views. -/
theorem Sound.weaken {pre' : ν → S.Call → Prop} (h : Sound C v₀ rely Q good P)
    (hpre : ∀ v c, C.pre v c → pre' v c) : Sound ⟨pre', C.next⟩ v₀ rely Q good P where
  resting := h.resting
  running t p hp := (h.running t p hp).weaken hpre
  results := h.results

/-- One thread changes, and the views of the others do not. -/
theorem Sound.update (h : Sound C v₀ rely Q good P) {P' : Pool S σ ι X R} {t : ι}
    {thread : Thread S X R} (hthreads : P'.threads = Function.update P.threads t thread)
    (hview : ∀ u, u ≠ t → view C v₀ P'.log u = view C v₀ P.log u)
    (hresting : thread.running = none → Q thread.object (view C v₀ P'.log t))
    (hrunning : ∀ p, thread.running = some p →
      p.Ensures C rely (fun r v => Q r.2 v ∧ good r.1) (view C v₀ P'.log t))
    (hresults : ∀ r ∈ thread.results, good r) : Sound C v₀ rely Q good P' := by
  have hthread : P'.threads t = thread := by rw [hthreads, Function.update_self]
  have hother : ∀ u, u ≠ t → P'.threads u = P.threads u := fun u hu => by
    rw [hthreads, Function.update_of_ne hu]
  refine ⟨fun u => ?_, fun u => ?_, fun u => ?_⟩ <;> by_cases hu : u = t
  · subst hu
    rw [hthread]
    exact hresting
  · rw [hother u hu, hview u hu]
    exact h.resting u
  · subst hu
    rw [hthread]
    exact hrunning
  · rw [hother u hu, hview u hu]
    exact h.running u
  · subst hu
    rw [hthread]
    exact hresults
  · rw [hother u hu]
    exact h.results u

/-- **A move keeps every thread inside its contract**, if an operation that begins leads from `Q` to
`Q` and a call gets an answer the threads rely on. -/
theorem Sound.move (h : Sound C v₀ rely Q good P) (mv : Move ι A)
    (hperform : ∀ t a x v, mv = .invoke t a → Q x v →
      (perform a x).Ensures C rely (fun r v => Q r.2 v ∧ good r.1) v)
    (hrely : ∀ t c, mv = .step t → P.Calls t c → rely c (m P.shared c).1) :
    Sound C v₀ rely Q good (P.move m perform mv) := by
  cases mv with
  | invoke t a =>
      simp only [Pool.move]
      rcases hrun : (P.threads t).running with - | p
      · refine h.update rfl (fun _ _ => rfl) (fun hnone => by cases hnone) (fun p hp => ?_)
          (h.results t)
        obtain rfl := Option.some.inj hp
        exact hperform t a _ _ rfl (h.resting t hrun)
      · exact h
  | step t =>
      simp only [Pool.move]
      rcases hrun : (P.threads t).running with - | ⟨⟨r, x⟩ | ⟨c, k⟩⟩
      · exact h
      · obtain ⟨hQ, hgood⟩ := h.running t _ hrun
        refine h.update rfl (fun _ _ => rfl) (fun _ => hQ) (fun p hp => by cases hp) fun r' hr' => ?_
        rcases List.mem_append.mp hr' with hr' | hr'
        · exact h.results t r' hr'
        · rw [List.mem_singleton.mp hr']
          exact hgood
      · have hnext := (h.running t _ hrun).2 _ (hrely t c rfl ⟨k, hrun⟩)
        have hlog := view_append C v₀ P.log t ⟨c, (m P.shared c).1⟩
        -- the call is in the log now, which changes the view of this thread only
        refine h.update rfl (fun u hu => ?_) (fun hnone => by cases hnone) (fun p hp => ?_)
          (h.results t)
        · rw [hlog, Function.update_of_ne hu]
        · obtain rfl := Option.some.inj hp
          rw [hlog, Function.update_self]
          exact hnext

end Pool

end Vmb.Lib

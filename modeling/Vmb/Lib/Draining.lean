/-
# Vmb.Lib.Draining -- disciplined threads never get stuck

A schedule of disciplined threads can always be continued, by steps alone and without waiting, until
every thread is at rest (`Locked.quiesces`). First each thread gives back the lock it holds; then the
workers finish, which wait for locks only; then the others finish, which may wait for the workers.
-/
import Mathlib.Data.Fintype.EquivFin
import Vmb.Lib.Locks

namespace Vmb.Lib

variable {S : Signature} {σ ι μ A X R : Type} [DecidableEq ι] [DecidableEq μ] {m : Machine S σ}
  {K : Conventions S μ} {worker : ι → Prop} {calm : A → Prop}
  {perform : A → X → Prog (Locking S μ) (R × X)} {P P' P'' : Pool (Locking S μ) (σ × Finset μ) ι X R}

/-! ## Continuing a schedule -/

section Append

variable {m : Machine S σ} {perform : A → X → Prog S (R × X)}

theorem Pool.run_run (P : Pool S σ ι X R) (moves moves' : List (Move ι A)) :
    P.run m perform (moves ++ moves') = (P.run m perform moves).run m perform moves' :=
  List.foldl_append ..

theorem Pool.along_append {ok : Pool S σ ι X R → Move ι A → Prop} {P : Pool S σ ι X R}
    {moves moves' : List (Move ι A)} (h : P.Along m perform ok moves)
    (h' : (P.run m perform moves).Along m perform ok moves') :
    P.Along m perform ok (moves ++ moves') := by
  induction moves generalizing P with
  | nil => exact h'
  | cons mv moves ih =>
      obtain ⟨hmv, h⟩ := Pool.along_cons.mp h
      exact Pool.along_cons.mpr ⟨hmv, ih h h'⟩

end Append

/-- Steps that do not have to wait lead from `P` to `P'`. -/
def Drains (m : Machine S σ) (K : Conventions S μ) (worker : ι → Prop) (calm : A → Prop)
    (perform : A → X → Prog (Locking S μ) (R × X)) (P P' : Pool (Locking S μ) (σ × Finset μ) ι X R) :
    Prop :=
  ∃ ts : List ι, P.Along m.locking perform (Legal K worker calm) (ts.map .step) ∧
    P.run m.locking perform (ts.map .step) = P'

theorem Drains.refl (P : Pool (Locking S μ) (σ × Finset μ) ι X R) :
    Drains m K worker calm perform P P := by
  refine ⟨[], fun before mv hpre => ?_, rfl⟩
  exact absurd (List.prefix_nil.mp hpre) (by simp)

theorem Drains.step {t : ι} (hlegal : Legal K worker calm P (.step t))
    (h : Drains m K worker calm perform (P.move m.locking perform (.step t)) P') :
    Drains m K worker calm perform P P' := by
  obtain ⟨ts, halong, hrun⟩ := h
  exact ⟨t :: ts, Pool.along_cons.mpr ⟨hlegal, halong⟩, hrun⟩

theorem Drains.trans (h : Drains m K worker calm perform P P')
    (h' : Drains m K worker calm perform P' P'') : Drains m K worker calm perform P P'' := by
  obtain ⟨ts, halong, hrun⟩ := h
  induction ts generalizing P with
  | nil =>
      cases hrun
      exact h'
  | cons t ts ih =>
      obtain ⟨hlegal, halong⟩ := Pool.along_cons.mp halong
      exact Drains.step hlegal (ih halong hrun)

/-! ## One thread -/

section OneThread

variable (hperform : ∀ a x, (perform a x).Disciplined K)
  (hcalm : ∀ a x, calm a → (perform a x).CallsOnly K.Quick)

include hperform hcalm

/-- A thread gives back the lock it holds. -/
theorem Locked.release (h : Locked K worker P) (t : ι) :
    ∃ P', Drains m K worker calm perform P P' ∧ Locked K worker P' ∧ P'.lockOf K t = none ∧
      ∀ u, u ≠ t → P'.lockOf K u = P.lockOf K u := by
  rcases hrun : (P.threads t).running with - | p
  · exact ⟨P, Drains.refl P, h, h.resting hrun, fun u _ => rfl⟩
  rcases hlock : P.lockOf K t with - | l
  · exact ⟨P, Drains.refl P, h, hlock, fun u _ => rfl⟩
  -- the thread goes on until it gives the lock back
  induction p generalizing P with
  | done a =>
      have hnone : P.lockOf K t = none := (h.sound.running t _ hrun).1
      rw [hlock] at hnone
      cases hnone
  | call c k ih =>
      have hpre := h.sound.pre ⟨k, hrun⟩
      have hlegal : Legal K worker calm P (.step t) := by
        refine ⟨fun l' hc => ?_, fun c' hc hwaits => ?_⟩
        · obtain rfl := Pool.Calls.unique hrun hc
          have hnone : P.lockOf K t = none := hpre
          rw [hlock] at hnone
          cases hnone
        · obtain rfl := Pool.Calls.unique hrun hc
          have hnone : P.lockOf K t = none := hpre.2 hwaits
          rw [hlock] at hnone
          cases hnone
      have hmove : Locked K worker (P.move m.locking perform (.step t)) :=
        h.move hlegal hperform hcalm
      have hstep : P.move m.locking perform (.step t) = _ := Pool.move_call hrun
      have hlocks := lockOf_append (K := K) (congrArg Pool.log hstep)
      have hother : ∀ u, u ≠ t →
          (P.move m.locking perform (.step t)).lockOf K u = P.lockOf K u := fun u hu => by
        rw [hlocks, Function.update_of_ne hu]
      have hself := congrFun hlocks t
      rw [Function.update_self, hlock] at hself
      cases c with
      | lock l' =>
          have hnone : P.lockOf K t = none := hpre
          rw [hlock] at hnone
          cases hnone
      | unlock l' => exact ⟨_, Drains.step hlegal (Drains.refl _), hmove, hself, hother⟩
      | call c =>
          obtain ⟨P', hdrains, hlocked, hfree, hothers⟩ :=
            ih (m.locking P.shared (.call c)).1 hmove (by simp only [hstep, Function.update_self]) hself
          refine ⟨P', Drains.step hlegal hdrains, hlocked, hfree, fun u hu => ?_⟩
          rw [hothers u hu, hother u hu]

/-- While no lock is held, and the workers are at rest if the thread may have to wait for them, a
thread finishes its operation. -/
theorem Locked.finish (h : Locked K worker P) (t : ι) (hlock : ∀ u, u ≠ t → P.lockOf K u = none)
    (hrest : worker t ∨ P.Rested worker) :
    ∃ P', Drains m K worker calm perform P P' ∧ Locked K worker P' ∧
      (P'.threads t).running = none ∧ (∀ u, P'.lockOf K u = none) ∧
      ∀ u, u ≠ t → P'.threads u = P.threads u := by
  rcases hrun : (P.threads t).running with - | p
  · refine ⟨P, Drains.refl P, h, hrun, fun u => ?_, fun u _ => rfl⟩
    rcases eq_or_ne u t with rfl | hu
    · exact h.resting hrun
    · exact hlock u hu
  induction p generalizing P with
  | done a =>
      have hlegal : Legal K worker calm P (.step t) := by
        refine ⟨fun l' hc => ?_, fun c' hc _ => ?_⟩
        all_goals
          obtain ⟨k', hk⟩ := hc
          rw [hrun] at hk
          cases hk
      have hmove : Locked K worker (P.move m.locking perform (.step t)) :=
        h.move hlegal hperform hcalm
      have hnone : P.lockOf K t = none := (h.sound.running t _ hrun).1
      refine ⟨_, Drains.step hlegal (Drains.refl _), hmove, ?_, fun u => ?_, fun u hu => ?_⟩
      · simp only [Pool.move, hrun, Function.update_self]
      · have hsame : (P.move m.locking perform (.step t)).lockOf K u = P.lockOf K u := by
          simp only [Pool.move, hrun, Pool.lockOf]
        rw [hsame]
        rcases eq_or_ne u t with rfl | hu
        · exact hnone
        · exact hlock u hu
      · simp only [Pool.move, hrun]
        exact Function.update_of_ne hu ..
  | call c k ih =>
      have hlegal : Legal K worker calm P (.step t) := by
        refine ⟨fun l hc hl => ?_, fun c' hc hwaits => ?_⟩
        · obtain rfl := Pool.Calls.unique hrun hc
          -- nobody holds a lock, this thread neither
          have hself : P.lockOf K t = none := h.sound.pre ⟨k, hrun⟩
          obtain ⟨u, hu⟩ := (h.held l).mp hl
          rcases eq_or_ne u t with rfl | hne
          · rw [hself] at hu
            cases hu
          · rw [hlock u hne] at hu
            cases hu
        · obtain rfl := Pool.Calls.unique hrun hc
          rcases hrest with hworker | hrest
          · exact absurd hwaits (h.quick t _ hworker hrun).1
          · exact hrest
      have hmove : Locked K worker (P.move m.locking perform (.step t)) :=
        h.move hlegal hperform hcalm
      have hstep : P.move m.locking perform (.step t) = _ := Pool.move_call hrun
      have hlocks := lockOf_append (K := K) (congrArg Pool.log hstep)
      have hthreads : ∀ u, u ≠ t →
          (P.move m.locking perform (.step t)).threads u = P.threads u := fun u hu => by
        rw [hstep]
        exact Function.update_of_ne hu ..
      have hrest' : worker t ∨ (P.move m.locking perform (.step t)).Rested worker := by
        by_cases hworker : worker t
        · exact Or.inl hworker
        · refine Or.inr fun u hu => ?_
          have hne : u ≠ t := by
            rintro rfl
            exact hworker hu
          rw [hthreads u hne]
          exact (hrest.resolve_left hworker) u hu
      obtain ⟨P', hdrains, hlocked, hdone, hfree, hothers⟩ := ih (m.locking P.shared c).1 hmove
        (fun u hu => by rw [hlocks, Function.update_of_ne hu]; exact hlock u hu) hrest'
        (by simp only [hstep, Function.update_self])
      refine ⟨P', Drains.step hlegal hdrains, hlocked, hdone, hfree, fun u hu => ?_⟩
      rw [hothers u hu, hthreads u hu]

end OneThread

/-! ## All threads -/

variable (m K worker calm perform) in
/-- One thread after the other. -/
theorem Drains.sweep (I : Pool (Locking S μ) (σ × Finset μ) ι X R → Prop)
    (good : ι → Pool (Locking S μ) (σ × Finset μ) ι X R → Prop)
    (hstep : ∀ P t, I P → ∃ P', Drains m K worker calm perform P P' ∧ I P' ∧ good t P' ∧
      ∀ u, good u P → good u P') (ts : List ι) (h : I P) :
    ∃ P', Drains m K worker calm perform P P' ∧ I P' ∧ (∀ t ∈ ts, good t P') ∧
      ∀ u, good u P → good u P' := by
  induction ts generalizing P with
  | nil => exact ⟨P, Drains.refl P, h, fun t ht => absurd ht List.not_mem_nil, fun u hu => hu⟩
  | cons t ts ih =>
      obtain ⟨P₁, hdrains₁, h₁, hgood₁, hkeep₁⟩ := hstep P t h
      obtain ⟨P₂, hdrains₂, h₂, hgood₂, hkeep₂⟩ := ih h₁
      refine ⟨P₂, hdrains₁.trans hdrains₂, h₂, fun u hu => ?_, fun u hu => hkeep₂ u (hkeep₁ u hu)⟩
      rcases List.mem_cons.mp hu with rfl | hu
      · exact hkeep₂ u hgood₁
      · exact hgood₂ u hu

variable (m K worker calm perform) in
theorem Drains.sweep_all [Finite ι] (I : Pool (Locking S μ) (σ × Finset μ) ι X R → Prop)
    (good : ι → Pool (Locking S μ) (σ × Finset μ) ι X R → Prop)
    (hstep : ∀ P t, I P → ∃ P', Drains m K worker calm perform P P' ∧ I P' ∧ good t P' ∧
      ∀ u, good u P → good u P') (h : I P) :
    ∃ P', Drains m K worker calm perform P P' ∧ I P' ∧ ∀ t, good t P' := by
  obtain ⟨ts, -, hts⟩ := Finite.exists_univ_list ι
  obtain ⟨P', hdrains, h', hgood, -⟩ := Drains.sweep m K worker calm perform I good hstep ts h
  exact ⟨P', hdrains, h', fun t => hgood t (hts t)⟩

/-- **Disciplined threads never get stuck.** Steps that do not have to wait lead to a pool in which
every thread is at rest and every lock is free. -/
theorem Locked.quiesces [Finite ι] (h : Locked K worker P)
    (hperform : ∀ a x, (perform a x).Disciplined K)
    (hcalm : ∀ a x, calm a → (perform a x).CallsOnly K.Quick) :
    ∃ P', Drains m K worker calm perform P P' ∧ P'.shared.2 = ∅ ∧
      ∀ t, (P'.threads t).running = none := by
  obtain ⟨P₁, hdrains₁, h₁, hfree₁⟩ := Drains.sweep_all m K worker calm perform
    (Locked K worker) (fun t P => P.lockOf K t = none) (fun P t h => by
      obtain ⟨P', hdrains, h', hfree, hother⟩ := h.release hperform hcalm t
      refine ⟨P', hdrains, h', hfree, fun u hu => ?_⟩
      rcases eq_or_ne u t with rfl | hne
      · exact hfree
      · rw [hother u hne, hu]) h
  obtain ⟨P₂, hdrains₂, ⟨h₂, hfree₂⟩, hrested⟩ := Drains.sweep_all m K worker calm perform
    (fun P => Locked K worker P ∧ ∀ u, P.lockOf K u = none)
    (fun t P => worker t → (P.threads t).running = none) (fun P t hI => by
      by_cases hworker : worker t
      · obtain ⟨P', hdrains, h', hdone, hfree, hother⟩ :=
          hI.1.finish hperform hcalm t (fun u _ => hI.2 u) (Or.inl hworker)
        refine ⟨P', hdrains, ⟨h', hfree⟩, fun _ => hdone, fun u hu hworker' => ?_⟩
        rcases eq_or_ne u t with rfl | hne
        · exact hdone
        · rw [hother u hne]
          exact hu hworker'
      · exact ⟨P, Drains.refl P, hI, fun ht => absurd ht hworker, fun u hu => hu⟩) ⟨h₁, hfree₁⟩
  obtain ⟨P₃, hdrains₃, ⟨h₃, hfree₃, -⟩, hdone⟩ := Drains.sweep_all m K worker calm perform
    (fun P => Locked K worker P ∧ (∀ u, P.lockOf K u = none) ∧ P.Rested worker)
    (fun t P => (P.threads t).running = none) (fun P t hI => by
      obtain ⟨P', hdrains, h', hdone, hfree, hother⟩ :=
        hI.1.finish hperform hcalm t (fun u _ => hI.2.1 u) (Or.inr hI.2.2)
      have hkeep : ∀ u, (P.threads u).running = none → (P'.threads u).running = none := by
        intro u hu
        rcases eq_or_ne u t with rfl | hne
        · exact hdone
        · rw [hother u hne]
          exact hu
      exact ⟨P', hdrains, ⟨h', hfree, fun u hu => hkeep u (hI.2.2 u hu)⟩, hdone, hkeep⟩)
    ⟨h₂, hfree₂, hrested⟩
  refine ⟨P₃, hdrains₁.trans (hdrains₂.trans hdrains₃), ?_, hdone⟩
  refine Finset.eq_empty_of_forall_notMem fun l hl => ?_
  obtain ⟨t, ht⟩ := (h₃.held l).mp hl
  rw [hfree₃ t] at ht
  cases ht

end Vmb.Lib

/-
# Vmb.Lib.Balance -- threads that give back only what they have

A call may bring its thread things and take things from it, and the view of the thread says how many
it has (`Ledger`). If no thread gives back more than it has, then over all threads together what has
been brought is what has been given back and what the threads have (`Ledger.balanced`). So as long as
one thread has something, something is out (`Ledger.lost_lt`).

`Lasting p I` is the past-time property of an event and what has been true ever since: some event was
`p`, and the log was in `I` then and at every later moment.
-/
import Mathlib.Algebra.BigOperators.Group.Finset.Piecewise
import Mathlib.Algebra.Order.BigOperators.Group.Finset
import Vmb.Lib.Pool
import Vmb.Lib.Since

namespace Vmb.Lib

variable {S : Signature} {ν σ ι A X R : Type}

/-! ## Logs of disciplined threads -/

/-- Every call of the log was allowed in the view of its thread. -/
def Abides [DecidableEq ι] (C : Contract S ν) (v₀ : ν) (log : List (ι × Event S)) : Prop :=
  Conforms (fun pre e => C.pre (Pool.view C v₀ pre e.1) e.2.call) log

section Pools

variable [DecidableEq ι] {C : Contract S ν} {v₀ : ν} {rely : (c : S.Call) → S.Resp c → Prop}
  {Q : X → ν → Prop} {good : R → Prop} {P : Pool S σ ι X R}

/-- Threads inside their contracts make allowed calls. -/
theorem Abides.move (h : Abides C v₀ P.log) (hsound : P.Sound C v₀ rely Q good) (m : Machine S σ)
    (perform : A → X → Prog S (R × X)) (mv : Move ι A) :
    Abides C v₀ (P.move m perform mv).log := by
  rcases P.move_cases m perform mv with ⟨-, hlog⟩ | ⟨t, c, -, hcalls, -, hlog⟩
  · rw [hlog]
    exact h
  · rw [hlog]
    exact conforms_append.mpr ⟨h, hsound.pre hcalls⟩

end Pools

/-! ## Accounts -/

/-- How many things of a kind a call brings and takes, and how many a thread has. -/
structure Ledger (C : Contract S ν) where
  gained : Event S → Nat
  lost : Event S → Nat
  held : ν → Nat
  step : ∀ v c r, C.pre v c → held (C.next v c r) + lost ⟨c, r⟩ = held v + gained ⟨c, r⟩

/-- The sum over a log. -/
def total (f : Event S → Nat) : List (ι × Event S) → Nat
  | [] => 0
  | e :: log => f e.2 + total f log

@[simp] theorem total_nil (f : Event S → Nat) : total f ([] : List (ι × Event S)) = 0 := rfl

@[simp] theorem total_append (f : Event S → Nat) (log : List (ι × Event S)) (e : ι × Event S) :
    total f (log ++ [e]) = total f log + f e.2 := by
  induction log with
  | nil => exact Nat.add_comm (f e.2) 0
  | cons x log ih =>
      show f x.2 + total f (log ++ [e]) = f x.2 + total f log + f e.2
      omega

namespace Ledger

variable [DecidableEq ι] {C : Contract S ν} {v₀ : ν} {log : List (ι × Event S)} {t : ι}

/-- What has been brought has been given back, or is with one of the threads. -/
theorem balanced (A : Ledger C) (hnone : A.held v₀ = 0) {T : Finset ι} (hlog : Abides C v₀ log)
    (hT : ∀ e ∈ log, e.1 ∈ T) :
    total A.lost log + ∑ t ∈ T, A.held (Pool.view C v₀ log t) = total A.gained log := by
  induction log using List.reverseRecOn with
  | nil => simp [Pool.view, hnone]
  | append_singleton log e ih =>
      obtain ⟨t, c, r⟩ := e
      obtain ⟨hbefore, hpre⟩ := conforms_append.mp hlog
      have ht : t ∈ T := hT (t, ⟨c, r⟩) (by simp)
      have hsum := ih hbefore fun x hx => hT x (by simp [hx])
      have hstep := A.step (Pool.view C v₀ log t) c r hpre
      -- the thread of the event is one term of the sum, and the others are as before
      have hothers : ∀ u ∈ T \ {t}, A.held (Pool.view C v₀ (log ++ [(t, ⟨c, r⟩)]) u) =
          A.held (Pool.view C v₀ log u) := by
        intro u hu
        rw [Pool.view_append, Function.update_of_ne (by simpa using (Finset.mem_sdiff.mp hu).2)]
      have hself : A.held (Pool.view C v₀ (log ++ [(t, ⟨c, r⟩)]) t) =
          A.held (C.next (Pool.view C v₀ log t) c r) := by
        rw [Pool.view_append, Function.update_self]
      rw [Finset.sum_eq_add_sum_sdiff_singleton_of_mem ht] at hsum ⊢
      rw [Finset.sum_congr rfl hothers, hself, total_append, total_append]
      simp only
      omega

/-- While a thread has something, less has been given back than brought. -/
theorem lost_lt (A : Ledger C) (hnone : A.held v₀ = 0) (hlog : Abides C v₀ log)
    (ht : 0 < A.held (Pool.view C v₀ log t)) : total A.lost log < total A.gained log := by
  have hsum := A.balanced hnone (T := insert t (log.map Prod.fst).toFinset) hlog fun e he => by
    simp only [Finset.mem_insert, List.mem_toFinset]
    exact Or.inr (List.mem_map_of_mem he)
  have hle := Finset.single_le_sum (f := fun u => A.held (Pool.view C v₀ log u))
    (fun _ _ => Nat.zero_le _) (Finset.mem_insert_self t (log.map Prod.fst).toFinset)
  omega

end Ledger

/-! ## What has been true ever since -/

section Lasting

variable {α : Type} {p : α → Prop} {I : List α → Prop} {l : List α} {e : α}

/-- Some event was `p`, and `I` has been true from then on. -/
def Lasting (p : α → Prop) (I : List α → Prop) (l : List α) : Prop :=
  ∃ l₁ e l₂, l = l₁ ++ e :: l₂ ∧ p e ∧ ∀ l', l' <+: l₂ → I (l₁ ++ e :: l')

theorem Lasting.start (he : p e) (hI : I (l ++ [e])) : Lasting p I (l ++ [e]) := by
  refine ⟨l, e, [], rfl, he, fun l' hl' => ?_⟩
  rw [List.prefix_nil.mp hl']
  exact hI

theorem Lasting.append (h : Lasting p I l) (hI : I (l ++ [e])) : Lasting p I (l ++ [e]) := by
  obtain ⟨l₁, x, l₂, rfl, hx, hl₂⟩ := h
  refine ⟨l₁, x, l₂ ++ [e], by simp, hx, fun l' hl' => ?_⟩
  rcases List.prefix_concat_iff.mp hl' with rfl | hl'
  · simpa using hI
  · exact hl₂ l' hl'

theorem Lasting.now (h : Lasting p I l) : I l := by
  obtain ⟨l₁, x, l₂, rfl, -, hl₂⟩ := h
  exact hl₂ l₂ (List.prefix_refl l₂)

end Lasting

end Vmb.Lib

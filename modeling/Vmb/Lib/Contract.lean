/-
# Vmb.Lib.Contract -- what a caller owes an interface, and machines that keep their side

A `Contract` describes one party's side of an interface by a local view `ν`: which calls the party
may issue in a view (`pre`), and how its view changes with the answer (`next`). `Prog.Meets` is the
weakest precondition of a program under a contract, for all answers; it is proved once per program,
without a machine.

A machine that serves many parties is related to all their views at once by an abstraction relation
`Abs`. `Serves` is the one-call obligation: an allowed call of one party, made while the other
parties are idle, changes that party's view only. `Serves.run` lifts it to whole programs, so that a
program verified once against the contract is correct on every machine that serves it. It takes a
condition `G` on states that never comes back once it is lost (a budget not yet spent): it is assumed
at the end of the run and used at every call.
-/
import Vmb.Lib.Prog

namespace Vmb.Lib

/-- One party's side of an interface, over a local view `ν`. -/
structure Contract (S : Signature) (ν : Type) where
  /-- The calls the party may issue. -/
  pre : ν → S.Call → Prop
  /-- Its view after the call. -/
  next : ν → (c : S.Call) → S.Resp c → ν

/-- The contract that allows everything. -/
def Contract.free (S : Signature) : Contract S Unit := ⟨fun _ _ => True, fun _ _ _ => ()⟩

variable {S : Signature} {α β ν σ σ₁ σ₂ ι : Type}

/-- The view after the calls of a log. -/
def Contract.after (C : Contract S ν) (v : ν) (log : List (Event S)) : ν :=
  log.foldl (fun v e => C.next v e.call e.resp) v

namespace Prog

/-! ## Programs that meet a contract -/

/-- From the view `v`, `p` issues only allowed calls, whatever they are answered, and it ends with a
result and a view in `Q`. -/
def Meets (C : Contract S ν) (Q : α → ν → Prop) : Prog S α → ν → Prop
  | .done a, v => Q a v
  | .call c k, v => C.pre v c ∧ ∀ r, (k r).Meets C Q (C.next v c r)

variable {C : Contract S ν} {Q : α → ν → Prop}

@[simp] theorem meets_done {a : α} {v : ν} : (Prog.done a).Meets C Q v ↔ Q a v := Iff.rfl

@[simp] theorem meets_call {c : S.Call} {k : S.Resp c → Prog S α} {v : ν} :
    (Prog.call c k).Meets C Q v ↔ C.pre v c ∧ ∀ r, (k r).Meets C Q (C.next v c r) := Iff.rfl

theorem meets_bind {p : Prog S β} {f : β → Prog S α} {v : ν} :
    (p >>= f).Meets C Q v ↔ p.Meets C (fun b v' => (f b).Meets C Q v') v := by
  induction p generalizing v with
  | done b => rfl
  | call c k ih =>
      simp only [call_bind, meets_call]
      exact and_congr_right fun _ => forall_congr' fun r => ih r

theorem Meets.mono {Q' : α → ν → Prop} {p : Prog S α} {v : ν} (h : p.Meets C Q v)
    (hQ : ∀ a v', Q a v' → Q' a v') : p.Meets C Q' v := by
  induction p generalizing v with
  | done a => exact hQ a v h
  | call c k ih => exact ⟨h.1, fun r => ih r (h.2 r)⟩

/-- A contract that allows more. -/
theorem Meets.weaken {pre' : ν → S.Call → Prop} {p : Prog S α} {v : ν} (h : p.Meets C Q v)
    (hpre : ∀ v c, C.pre v c → pre' v c) : p.Meets ⟨pre', C.next⟩ Q v := by
  induction p generalizing v with
  | done a => exact h
  | call c k ih => exact ⟨hpre v c h.1, fun r => ih r (h.2 r)⟩

/-- What every allowed call preserves, with the view of the caller, holds at the end of a run. -/
theorem Meets.run_invariant {m : Machine S σ} {I : σ → ν → Prop}
    (hstep : ∀ s v c, I s v → C.pre v c → I (m s c).2 (C.next v c (m s c).1)) {p : Prog S α} {s : σ}
    {v : ν} (h : p.Meets C Q v) (hs : I s v) : ∃ v', Q (p.run m s).1 v' ∧ I (p.run m s).2 v' := by
  induction p generalizing s v with
  | done a => exact ⟨v, h, hs⟩
  | call c k ih => exact ih (m s c).1 (h.2 (m s c).1) (hstep s v c hs h.1)

/-- A run ends with the view its calls lead to. -/
theorem Meets.run_after {p : Prog S α} {v : ν} (h : p.Meets C Q v) (m : Machine S σ) (s : σ) :
    Q (p.run m s).1 (C.after v ((p.history m s).map Prod.snd)) := by
  induction p generalizing s v with
  | done a => exact h
  | call c k ih => exact ih (m s c).1 (h.2 (m s c).1) (m s c).2

/-- What the results satisfy does not depend on the contract. -/
theorem Meets.results {ν' : Type} {C' : Contract S ν'} {p : Prog S α} {v : ν} (h : p.Meets C Q v)
    (hfree : ∀ w c, C'.pre w c) (w : ν') : p.Meets C' (fun a _ => ∃ v', Q a v') w := by
  induction p generalizing v w with
  | done a => exact ⟨v, h⟩
  | call c k ih => exact ⟨hfree w c, fun r => ih r (h.2 r) _⟩

theorem meets_free (p : Prog S α) : p.Meets (.free S) (fun _ _ => True) () := by
  induction p with
  | done a => trivial
  | call c k ih => exact ⟨trivial, ih⟩

/-- What holds of every result, whatever the answers, holds of the result of a run. -/
theorem Meets.run_free {P : α → Prop} {p : Prog S α} (h : p.Meets (.free S) (fun a _ => P a) ())
    (m : Machine S σ) (s : σ) : P (p.run m s).1 := by
  induction p generalizing s with
  | done a => exact h
  | call c k ih => exact ih _ (h.2 _) _

end Prog

/-! ## Machines that serve a contract -/

/-- `m` serves the parties `ι`: while `G` holds, an allowed call of party `i`, made while the others
are idle, changes the view of party `i` only. -/
structure Serves [DecidableEq ι] (C : Contract S ν) (m : Machine S σ)
    (Abs : σ → (ι → ν) → Prop) (Idle : ν → Prop) (G : σ → Prop) : Prop where
  back : ∀ s c, G (m s c).2 → G s
  step : ∀ s L i c, Abs s L → (∀ j, j ≠ i → Idle (L j)) → G (m s c).2 → C.pre (L i) c →
    Abs (m s c).2 (Function.update L i (C.next (L i) c (m s c).1))

namespace Serves

variable [DecidableEq ι] {C : Contract S ν} {m : Machine S σ} {Abs : σ → (ι → ν) → Prop}
  {Idle : ν → Prop} {G : σ → Prop}

/-- A program of party `i` that meets the contract changes the view of party `i` by its calls. -/
theorem run_after (h : Serves C m Abs Idle G) {Q : α → ν → Prop} (p : Prog S α) {s : σ} {L : ι → ν}
    (i : ι) (hp : p.Meets C Q (L i)) (hs : Abs s L) (hidle : ∀ j, j ≠ i → Idle (L j))
    (hG : G (p.run m s).2) :
    Abs (p.run m s).2 (Function.update L i (C.after (L i) ((p.history m s).map Prod.snd))) := by
  induction p generalizing s L with
  | done a =>
      show Abs s (Function.update L i (L i))
      rwa [Function.update_eq_self]
  | call c k ih =>
      have hG' : G (m s c).2 := Prog.run_reflects m G h.back _ _ hG
      have habs := h.step s L i c hs hidle hG' hp.1
      have hrest := ih (m s c).1 (L := Function.update L i (C.next (L i) c (m s c).1))
        (by simpa using hp.2 (m s c).1) habs
        (fun j hj => by simpa [Function.update_of_ne hj] using hidle j hj) hG
      rw [Function.update_self, Function.update_idem] at hrest
      exact hrest

/-- A program of party `i` that meets the contract runs correctly on a machine that serves it. -/
theorem run (h : Serves C m Abs Idle G) {Q : α → ν → Prop} (p : Prog S α) {s : σ} {L : ι → ν}
    (i : ι) (hp : p.Meets C Q (L i)) (hs : Abs s L) (hidle : ∀ j, j ≠ i → Idle (L j))
    (hG : G (p.run m s).2) :
    ∃ v, Q (p.run m s).1 v ∧ Abs (p.run m s).2 (Function.update L i v) :=
  ⟨_, hp.run_after m s, h.run_after p i hp hs hidle hG⟩

end Serves

end Vmb.Lib

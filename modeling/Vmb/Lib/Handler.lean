/-
# Vmb.Lib.Handler -- programs whose calls are programs themselves

An interface is often implemented on top of a lower one: every call of `S` is a program over `T`.
`Prog.through` replaces the calls of a program by their implementations. A party that keeps a contract
of `S` keeps a contract of `T` if every implementation does, from related views (`Meets.through`), so
the two levels are verified apart and put together here.
-/
import Vmb.Lib.Contract

namespace Vmb.Lib

variable {S T : Signature} {α β ν ν' σ : Type}

namespace Prog

/-- Replace every call by its implementation. -/
def through (impl : (c : S.Call) → Prog T (S.Resp c)) : Prog S α → Prog T α
  | .done a => .done a
  | .call c k => (impl c).bind fun r => (k r).through impl

variable {impl : (c : S.Call) → Prog T (S.Resp c)}

theorem through_call (c : S.Call) (k : S.Resp c → Prog S α) :
    (Prog.call c k).through impl = (impl c >>= fun r => (k r).through impl) := rfl

theorem through_bind (p : Prog S α) (f : α → Prog S β) :
    (p >>= f).through impl = p.through impl >>= fun a => (f a).through impl := by
  induction p with
  | done a => rfl
  | call c k ih =>
      rw [call_bind, through_call, through_call, bind_assoc]
      exact congrArg _ (funext ih)

/-- If every implementation does what the upper machine does, so does every program. -/
theorem run_through {m : Machine S σ} {m' : Machine T σ}
    (himpl : ∀ s c, (impl c).run m' s = m s c) (p : Prog S α) (s : σ) :
    (p.through impl).run m' s = p.run m s := by
  induction p generalizing s with
  | done a => rfl
  | call c k ih =>
      rw [through_call, run_bind, himpl s c, run_call]
      exact ih (m s c).1 (m s c).2

theorem CallsOnly.through {K : S.Call → Prop} {K' : T.Call → Prop} {p : Prog S α}
    (h : p.CallsOnly K) (himpl : ∀ c, K c → (impl c).CallsOnly K') :
    (p.through impl).CallsOnly K' := by
  induction p with
  | done a => trivial
  | call c k ih => exact (himpl c h.1).bind fun r => ih r (h.2 r)

/-- **Contracts compose.** Programs that meet the upper contract, with implementations that lead from
related views to related views, meet the lower one. -/
theorem Meets.through {C : Contract S ν} {C' : Contract T ν'} {Rel : ν → ν' → Prop}
    {Q : α → ν → Prop} {p : Prog S α} {v : ν} {w : ν'} (h : p.Meets C Q v) (hrel : Rel v w)
    (himpl : ∀ v w c, Rel v w → C.pre v c →
      (impl c).Meets C' (fun r w' => Rel (C.next v c r) w') w) :
    (p.through impl).Meets C' (fun a w' => ∃ v', Rel v' w' ∧ Q a v') w := by
  induction p generalizing v w with
  | done a => exact ⟨v, hrel, h⟩
  | call c k ih =>
      refine meets_bind.mpr ((himpl v w c hrel h.1).mono ?_)
      intro r w' hrel'
      exact ih r (h.2 r) hrel'

end Prog

end Vmb.Lib

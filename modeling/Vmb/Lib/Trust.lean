/-
# Vmb.Lib.Trust -- parties that know what they will be answered

What a call is answered often depends on the calls of its party alone: a table answers with what the
party has put there, as long as nobody else uses its key. `Contract.trusting` is the contract of a
party that counts on such answers. Its view is lost with the first answer that is not as promised, and
a party without a view owes nothing; so a program is verified against the promise, and the pool it
runs in is where the promise has to be shown (`view_trusting`).
-/
import Vmb.Lib.Pool

namespace Vmb.Lib

variable {S : Signature} {α β ν ι : Type} {rely : ν → (c : S.Call) → S.Resp c → Prop}

open Classical in
/-- The contract `C`, while every answer is in `rely`. -/
noncomputable def Contract.trusting (C : Contract S ν)
    (rely : ν → (c : S.Call) → S.Resp c → Prop) : Contract S (Option ν) where
  pre o c := ∀ v ∈ o, C.pre v c
  next o c r := o.bind fun v => if rely v c r then some (C.next v c r) else none

variable {C : Contract S ν}

theorem trusting_next {v : ν} {c : S.Call} {r : S.Resp c} (h : rely v c r) :
    (C.trusting rely).next (some v) c r = some (C.next v c r) := if_pos h

/-- `Q`, unless the view has been lost. -/
def Trusted (Q : α → ν → Prop) (a : α) (o : Option ν) : Prop := ∀ v ∈ o, Q a v

namespace Prog

variable {Q Q' : α → ν → Prop} {p : Prog S α} {v : ν}

/-- Without a view nothing is owed. -/
theorem meets_lost (p : Prog S α) : p.Meets (C.trusting rely) (Trusted Q) none := by
  induction p with
  | done a => exact fun _ h => (by cases h)
  | call c k ih => exact ⟨fun _ h => (by cases h), ih⟩

theorem meets_trusting_done {a : α} (h : Q a v) :
    (Prog.done a).Meets (C.trusting rely) (Trusted Q) (some v) := by
  intro v' hv
  obtain rfl := Option.some.inj hv
  exact h

/-- A call: the rest is verified for the answers that are promised. -/
theorem meets_trusting_call {c : S.Call} {k : S.Resp c → Prog S α} (hpre : C.pre v c)
    (hk : ∀ r, rely v c r → (k r).Meets (C.trusting rely) (Trusted Q) (some (C.next v c r))) :
    (Prog.call c k).Meets (C.trusting rely) (Trusted Q) (some v) := by
  refine ⟨fun v' hv => ?_, fun r => ?_⟩
  · obtain rfl := Option.some.inj hv
    exact hpre
  · by_cases hr : rely v c r
    · rw [trusting_next hr]
      exact hk r hr
    · have hnext : (C.trusting rely).next (some v) c r = none := if_neg hr
      rw [hnext]
      exact meets_lost _

/-- A program whose calls leave the view as it is. -/
theorem meets_trusting_quiet (h : p.CallsOnly fun c => C.pre v c ∧ ∀ r, C.next v c r = v)
    (hQ : ∀ a, Q a v) : p.Meets (C.trusting rely) (Trusted Q) (some v) := by
  induction p with
  | done a => exact meets_trusting_done (hQ a)
  | call c k ih =>
      refine meets_trusting_call h.1.1 fun r _ => ?_
      rw [h.1.2 r]
      exact ih r (h.2 r)

/-- A program from any view that has not been lost. -/
theorem meets_trusting {o : Option ν}
    (h : ∀ v ∈ o, p.Meets (C.trusting rely) (Trusted Q) (some v)) :
    p.Meets (C.trusting rely) (Trusted Q) o := by
  cases o with
  | none => exact meets_lost p
  | some v => exact h v rfl

end Prog

/-- **A promised answer keeps the views of all threads.** -/
theorem view_trusting [DecidableEq ι] {o : Option ν} {log : List (ι × Event S)} {view : ι → ν} {t : ι}
    {e : Event S} (hview : Pool.view (C.trusting rely) o log = fun u => some (view u))
    (hrely : rely (view t) e.call e.resp) :
    Pool.view (C.trusting rely) o (log ++ [(t, e)]) =
      fun u => some (Function.update view t (C.next (view t) e.call e.resp) u) := by
  rw [Pool.view_append, hview]
  dsimp only
  rw [trusting_next hrely]
  funext u
  rcases eq_or_ne u t with rfl | hne
  · rw [Function.update_self, Function.update_self]
  · rw [Function.update_of_ne hne, Function.update_of_ne hne]

end Vmb.Lib

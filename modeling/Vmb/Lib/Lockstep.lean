/-
# Vmb.Lib.Lockstep -- one program on two machines

Two machines that give related answers keep a program in step: it makes the same calls on both, and
its results are related too. What "related" means is a parameter, so that answers may differ where
the program does not look (the text of an error).

`Agrees` is the part about programs: two programs that make the same calls as long as their answers
are related. It composes (`Agrees.bind`) and is proved once per program, without a machine.
`ServesAlike` is the part about machines: an allowed call of one party gets related answers, and the
machines stay related. The machines may themselves be alike only under a condition `P` on the two
calls (the one was set up to fail this call, and so was the other); `ServesAlike.run` assumes it of
the two histories, paired call by call as far as both go.
-/
import Vmb.Lib.Contract
import Mathlib.Data.List.Forall2

namespace Vmb.Lib

variable {S : Signature} {α β ν σ₁ σ₂ ι : Type}

namespace Prog

/-! ## Programs that agree -/

variable {K : S.Call → Prop} {R : (c : S.Call) → S.Resp c → S.Resp c → Prop} {O : α → β → Prop}

/-- The two programs make the same calls, all of them in `K`, as long as they get related answers,
and then end with related results. -/
def Agrees (K : S.Call → Prop) (R : (c : S.Call) → S.Resp c → S.Resp c → Prop) (O : α → β → Prop) :
    Prog S α → Prog S β → Prop
  | .done a, .done b => O a b
  | .call c k, .call c' k' =>
    K c ∧ ∃ h : c' = c, ∀ r r', R c r r' → (k r).Agrees K R O (k' (h ▸ r'))
  | _, _ => False

@[simp] theorem agrees_done {a : α} {b : β} :
    (Prog.done a : Prog S α).Agrees K R O (.done b) ↔ O a b := by
  simp [Agrees]

@[simp] theorem agrees_call {c : S.Call} {k : S.Resp c → Prog S α} {k' : S.Resp c → Prog S β} :
    (Prog.call c k).Agrees K R O (.call c k') ↔
      K c ∧ ∀ r r', R c r r' → (k r).Agrees K R O (k' r') := by
  simp [Agrees]

/-- Agreeing programs either both end, or both make one and the same call. -/
theorem Agrees.cases {p : Prog S α} {q : Prog S β} (h : p.Agrees K R O q) :
    (∃ a b, p = .done a ∧ q = .done b ∧ O a b) ∨
      ∃ (c : S.Call) (k : S.Resp c → Prog S α) (k' : S.Resp c → Prog S β),
        p = .call c k ∧ q = .call c k' ∧ K c ∧ ∀ r r', R c r r' → (k r).Agrees K R O (k' r') := by
  cases p with
  | done a =>
      cases q with
      | done b => exact Or.inl ⟨a, b, rfl, rfl, agrees_done.mp h⟩
      | call c' k' => exact absurd h id
  | call c k =>
      cases q with
      | done b => exact absurd h id
      | call c' k' =>
          obtain ⟨hK, rfl, hk⟩ := h
          exact Or.inr ⟨c', k, k', rfl, rfl, hK, hk⟩

/-- Fewer answers are related. -/
theorem Agrees.mono {R' : (c : S.Call) → S.Resp c → S.Resp c → Prop} {p : Prog S α} {q : Prog S β}
    (h : p.Agrees K R O q) (hR : ∀ c r r', R' c r r' → R c r r') : p.Agrees K R' O q := by
  induction p generalizing q with
  | done a =>
      rcases h.cases with ⟨a', b, ha, rfl, hO⟩ | ⟨c, k, k', ha, -⟩
      · cases ha
        exact agrees_done.mpr hO
      · cases ha
  | call c k ih =>
      rcases h.cases with ⟨a, b, hp, -⟩ | ⟨c', k₁, k', hp, rfl, hK, hk⟩
      · cases hp
      · cases hp
        apply agrees_call.mpr
        exact ⟨hK, fun r r' hr => ih r (hk r r' (hR c r r' hr))⟩

theorem Agrees.bind {α' β' : Type} {O' : α' → β' → Prop} {p : Prog S α} {q : Prog S β}
    {f : α → Prog S α'} {g : β → Prog S β'} (h : p.Agrees K R O q)
    (hfg : ∀ a b, O a b → (f a).Agrees K R O' (g b)) : (p >>= f).Agrees K R O' (q >>= g) := by
  induction p generalizing q with
  | done a =>
      rcases h.cases with ⟨a', b, ha, rfl, hO⟩ | ⟨c, k, k', ha, -⟩
      · cases ha
        exact hfg a b hO
      · cases ha
  | call c k ih =>
      rcases h.cases with ⟨a, b, hp, -⟩ | ⟨c', k₁, k', hp, rfl, hK, hk⟩
      · cases hp
      · cases hp
        apply agrees_call.mpr
        exact ⟨hK, fun r r' hr => ih r (hk r r' hr)⟩

end Prog

/-! ## Paired lists -/

section Paired

variable {l : List α} {k : List β} {T : α → β → Prop}

/-- Two histories that go on are paired as before. -/
theorem mem_zip_append_left {x : α × β} {l' : List α} {k' : List β} (h : x ∈ l.zip k) :
    x ∈ (l ++ l').zip (k ++ k') := by
  induction l generalizing k with
  | nil => exact absurd h List.not_mem_nil
  | cons a l ih =>
      rcases k with - | ⟨b, k⟩
      · exact absurd h List.not_mem_nil
      · rcases List.mem_cons.mp h with rfl | h
        · exact List.mem_cons_self
        · exact List.mem_cons_of_mem _ (ih h)

/-- What holds of the second of every pair. -/
theorem forall_mem_of_forall₂ {P : β → Prop} (h : List.Forall₂ T l k) (hP : ∀ a b, T a b → P b) :
    ∀ b ∈ k, P b := by
  induction h with
  | nil => exact fun b hb => absurd hb List.not_mem_nil
  | cons hab _ ih => exact List.forall_mem_cons.mpr ⟨hP _ _ hab, ih⟩

theorem filterMap_eq_of_forall₂ {γ : Type} {f : α → Option γ} {g : β → Option γ}
    (h : List.Forall₂ T l k) (hfg : ∀ a b, T a b → g b = f a) : k.filterMap g = l.filterMap f := by
  induction h with
  | nil => rfl
  | cons hab _ ih => rw [List.filterMap_cons, List.filterMap_cons, hfg _ _ hab, ih]

end Paired

/-! ## Machines in step -/

/-- The same call, with related answers. -/
inductive Related (R : (c : S.Call) → S.Resp c → S.Resp c → Prop) : Event S → Event S → Prop
  | mk (c : S.Call) (r r' : S.Resp c) (h : R c r r') : Related R ⟨c, r⟩ ⟨c, r'⟩

/-- Two machines that serve the parties `ι` in step: an allowed call of party `i`, made under `P` and
while the others are idle, gets related answers. -/
structure ServesAlike [DecidableEq ι] (C : Contract S ν) (m₁ : Machine S σ₁) (m₂ : Machine S σ₂)
    (K : S.Call → Prop) (R : (c : S.Call) → S.Resp c → S.Resp c → Prop)
    (P : σ₁ × Event S → σ₂ × Event S → Prop) (Abs : σ₁ → σ₂ → (ι → ν) → Prop) (Idle : ν → Prop)
    (G : σ₁ → Prop) : Prop where
  back : ∀ s c, G (m₁ s c).2 → G s
  step : ∀ s₁ s₂ L i c, Abs s₁ s₂ L → (∀ j, j ≠ i → Idle (L j)) → G (m₁ s₁ c).2 →
    C.pre (L i) c → K c → P (s₁, ⟨c, (m₁ s₁ c).1⟩) (s₂, ⟨c, (m₂ s₂ c).1⟩) →
    R c (m₁ s₁ c).1 (m₂ s₂ c).1 ∧
      Abs (m₁ s₁ c).2 (m₂ s₂ c).2 (Function.update L i (C.next (L i) c (m₁ s₁ c).1))

/-- Agreeing programs of party `i` make the same calls on machines that serve it in step, get related
answers, and end with related results. -/
theorem ServesAlike.run [DecidableEq ι] {C : Contract S ν} {m₁ : Machine S σ₁} {m₂ : Machine S σ₂}
    {K : S.Call → Prop} {R : (c : S.Call) → S.Resp c → S.Resp c → Prop}
    {P : σ₁ × Event S → σ₂ × Event S → Prop} {Abs : σ₁ → σ₂ → (ι → ν) → Prop} {Idle : ν → Prop}
    {G : σ₁ → Prop} (h : ServesAlike C m₁ m₂ K R P Abs Idle G) {Q : α → ν → Prop} {O : α → β → Prop}
    (p : Prog S α) (q : Prog S β) {s₁ : σ₁} {s₂ : σ₂} {L : ι → ν} (i : ι) (hp : p.Meets C Q (L i))
    (hpq : p.Agrees K R O q) (hs : Abs s₁ s₂ L) (hidle : ∀ j, j ≠ i → Idle (L j))
    (hG : G (p.run m₁ s₁).2) (hP : ∀ x ∈ (p.history m₁ s₁).zip (q.history m₂ s₂), P x.1 x.2) :
    O (p.run m₁ s₁).1 (q.run m₂ s₂).1 ∧
      (∃ v, Q (p.run m₁ s₁).1 v ∧ Abs (p.run m₁ s₁).2 (q.run m₂ s₂).2 (Function.update L i v)) ∧
      List.Forall₂ (fun x y => Related R x.2 y.2 ∧ ∃ M, Abs x.1 y.1 M)
        (p.history m₁ s₁) (q.history m₂ s₂) := by
  induction p generalizing q s₁ s₂ L with
  | done a =>
      rcases hpq.cases with ⟨a', b, ha, rfl, hO⟩ | ⟨c, k, k', ha, -⟩
      · cases ha
        refine ⟨hO, ⟨L i, hp, ?_⟩, .nil⟩
        rw [Function.update_eq_self]
        exact hs
      · cases ha
  | call c k ih =>
      rcases hpq.cases with ⟨a, b, hc, -⟩ | ⟨c', k₁, k', hc, rfl, hK, hk⟩
      · cases hc
      · cases hc
        -- both programs make the call `c`, so the head of the paired histories is about it
        have hG' : G (m₁ s₁ c).2 := Prog.run_reflects m₁ G h.back _ _ hG
        obtain ⟨hhead, htail⟩ := List.forall_mem_cons.mp hP
        obtain ⟨hR, habs⟩ := h.step s₁ s₂ L i c hs hidle hG' hp.1 hK hhead
        have hview : (k (m₁ s₁ c).1).Meets C Q
            (Function.update L i (C.next (L i) c (m₁ s₁ c).1) i) := by
          rw [Function.update_self]
          exact hp.2 (m₁ s₁ c).1
        have hothers : ∀ j, j ≠ i → Idle (Function.update L i (C.next (L i) c (m₁ s₁ c).1) j) := by
          intro j hj
          rw [Function.update_of_ne hj]
          exact hidle j hj
        obtain ⟨hO, ⟨v, hv, hav⟩, hcalls⟩ :=
          ih (m₁ s₁ c).1 (k' (m₂ s₂ c).1) hview (hk _ _ hR) habs hothers hG htail
        refine ⟨hO, ⟨v, hv, ?_⟩, .cons ⟨.mk c _ _ hR, L, hs⟩ hcalls⟩
        rw [Function.update_idem] at hav
        exact hav

end Vmb.Lib

/-
# Vmb.Lib.Since -- past-time properties of finite traces

`Since p q l` is the past-time operator: some event of `l` satisfies `p`, and no event after it
satisfies `q`. With it a protocol rule ("a call is allowed only while …") is a property of the part
of the trace before the call, and `Conforms` asks it of every call of a trace. Both are read off a
trace from its end, one event at a time (`since_append`, `conforms_append`), which is how a run
grows.
-/
import Mathlib.Data.List.Induction

namespace Vmb.Lib

variable {α : Type*} {p q : α → Prop} {l : List α} {e : α}

/-- Some event of `l` satisfies `p`, and no later event satisfies `q`. -/
def Since (p q : α → Prop) (l : List α) : Prop :=
  ∃ l₁ e l₂, l = l₁ ++ e :: l₂ ∧ p e ∧ ∀ x ∈ l₂, ¬ q x

@[simp] theorem since_nil : ¬ Since p q [] := by
  rintro ⟨l₁, e, l₂, h, -⟩
  simp at h

@[simp] theorem since_append : Since p q (l ++ [e]) ↔ p e ∨ (Since p q l ∧ ¬ q e) := by
  constructor
  · rintro ⟨l₁, x, l₂, h, hp, hq⟩
    rcases List.eq_nil_or_concat l₂ with rfl | ⟨l₂', y, rfl⟩
    · obtain ⟨-, he⟩ := List.append_inj' h rfl
      simp only [List.cons.injEq, and_true] at he
      exact Or.inl (he ▸ hp)
    · rw [List.concat_eq_append, ← List.cons_append, ← List.append_assoc] at h
      obtain ⟨hl, hy⟩ := List.append_inj' h rfl
      simp only [List.cons.injEq, and_true] at hy
      subst hy
      refine Or.inr ⟨⟨l₁, x, l₂', hl, hp, fun z hz => hq z ?_⟩, hq e ?_⟩
      · simp [hz]
      · simp
  · rintro (hp | ⟨⟨l₁, x, l₂, rfl, hp, hq⟩, he⟩)
    · exact ⟨l, e, [], rfl, hp, by simp⟩
    · refine ⟨l₁, x, l₂ ++ [e], by simp, hp, fun z hz => ?_⟩
      rcases List.mem_append.mp hz with hz | hz
      · exact hq z hz
      · rw [List.mem_singleton.mp hz]
        exact he

theorem since_cons : Since p q (e :: l) ↔ Since p q l ∨ (p e ∧ ∀ x ∈ l, ¬ q x) := by
  constructor
  · rintro ⟨l₁, x, l₂, h, hp, hq⟩
    rcases List.cons_eq_append_iff.mp h with ⟨rfl, h⟩ | ⟨l₁', rfl, rfl⟩
    · cases h
      exact Or.inr ⟨hp, hq⟩
    · exact Or.inl ⟨l₁', x, l₂, rfl, hp, hq⟩
  · rintro (⟨l₁, x, l₂, rfl, hp, hq⟩ | ⟨hp, hq⟩)
    · exact ⟨e :: l₁, x, l₂, rfl, hp, hq⟩
    · exact ⟨[], e, l, rfl, hp, hq⟩

instance decidableSince [DecidablePred p] [DecidablePred q] :
    ∀ l : List α, Decidable (Since p q l)
  | [] => isFalse since_nil
  | _ :: l =>
    haveI : Decidable (Since p q l) := decidableSince l
    decidable_of_iff _ since_cons.symm

/-- Without a new event the past-time property can only be lost. -/
theorem Since.of_append {l' : List α} (hl : ∀ x ∈ l', ¬ p x) (h : Since p q (l ++ l')) :
    Since p q l := by
  induction l' using List.reverseRecOn with
  | nil => simpa using h
  | append_singleton l' x ih =>
      rw [← List.append_assoc, since_append] at h
      rcases h with hx | ⟨h, -⟩
      · exact absurd hx (hl x (by simp))
      · exact ih (fun y hy => hl y (by simp [hy])) h

/-- Events that do not end it keep the past-time property. -/
theorem Since.append {l' : List α} (h : Since p q l) (hl : ∀ x ∈ l', ¬ q x) :
    Since p q (l ++ l') := by
  obtain ⟨l₁, e, l₂, rfl, hp, hq⟩ := h
  refine ⟨l₁, e, l₂ ++ l', by simp, hp, fun x hx => ?_⟩
  rcases List.mem_append.mp hx with hx | hx
  · exact hq x hx
  · exact hl x hx

/-- An event that holds since it happened did happen. -/
theorem Since.exists_mem (h : Since p q l) : ∃ x ∈ l, p x := by
  obtain ⟨l₁, x, l₂, rfl, hp, -⟩ := h
  exact ⟨x, by simp, hp⟩

/-- Every event of `l` is allowed by the trace before it. -/
def Conforms (ok : List α → α → Prop) (l : List α) : Prop :=
  ∀ l₁ e l₂, l = l₁ ++ e :: l₂ → ok l₁ e

@[simp] theorem conforms_nil {ok : List α → α → Prop} : Conforms ok [] := by
  intro l₁ e l₂ h
  simp at h

@[simp] theorem conforms_append {ok : List α → α → Prop} :
    Conforms ok (l ++ [e]) ↔ Conforms ok l ∧ ok l e := by
  constructor
  · refine fun h => ⟨fun l₁ x l₂ hl => h l₁ x (l₂ ++ [e]) (by simp [hl]), h l e [] rfl⟩
  · rintro ⟨hl, he⟩ l₁ x l₂ h
    rcases List.eq_nil_or_concat l₂ with rfl | ⟨l₂', y, rfl⟩
    · obtain ⟨h₁, h₂⟩ := List.append_inj' h rfl
      simp only [List.cons.injEq, and_true] at h₂
      exact h₁ ▸ h₂ ▸ he
    · rw [List.concat_eq_append, ← List.cons_append, ← List.append_assoc] at h
      exact hl l₁ x l₂' (List.append_inj' h rfl).1

/-- The first event is allowed by nothing, and the others by a trace that begins with it. -/
theorem conforms_cons {ok : List α → α → Prop} :
    Conforms ok (e :: l) ↔ ok [] e ∧ Conforms (fun pre x => ok (e :: pre) x) l := by
  constructor
  · intro h
    refine ⟨h [] e l rfl, ?_⟩
    rintro l₁ x l₂ rfl
    exact h (e :: l₁) x l₂ rfl
  · rintro ⟨he, hl⟩ l₁ x l₂ h
    cases l₁ with
    | nil =>
        cases h
        exact he
    | cons y l₁ =>
        cases h
        exact hl l₁ x l₂ rfl

theorem Conforms.of_append {ok : List α → α → Prop} {l' : List α} (h : Conforms ok (l ++ l')) :
    Conforms ok l := by
  rintro l₁ e l₂ rfl
  exact h l₁ e (l₂ ++ l') (by simp)

/-- Events that are allowed by every trace. -/
theorem Conforms.append {ok : List α → α → Prop} {l' : List α} (h : Conforms ok l)
    (hl : ∀ x ∈ l', ∀ pre, ok pre x) : Conforms ok (l ++ l') := by
  induction l' using List.reverseRecOn with
  | nil => simpa using h
  | append_singleton l' x ih =>
      rw [← List.append_assoc, conforms_append]
      exact ⟨ih fun y hy => hl y (by simp [hy]), hl x (by simp) _⟩

/-- A trace seen through a map. -/
theorem conforms_map {β : Type*} {f : β → α} {ok : List α → α → Prop} {k : List β} :
    Conforms ok (k.map f) ↔ Conforms (fun pre x => ok (pre.map f) (f x)) k := by
  constructor
  · rintro h l₁ x l₂ rfl
    exact h (l₁.map f) (f x) (l₂.map f) (by simp)
  · intro h l₁ e l₂ hk
    obtain ⟨k₁, k', rfl, rfl, hk'⟩ := List.map_eq_append_iff.mp hk
    obtain ⟨x, k₂, rfl, rfl, rfl⟩ := List.map_eq_cons_iff.mp hk'
    exact h k₁ x k₂ rfl

/-! ## Counting -/

section Count

variable {p q : α → Bool}

/-- Every `q` ends a `p` of its own. -/
theorem countP_le_of_conforms (h : Conforms (fun pre e => q e = true → Since (p ·) (q ·) pre) l) :
    l.countP q + (if Since (p ·) (q ·) l then 1 else 0) ≤ l.countP p := by
  induction l using List.reverseRecOn with
  | nil => simp
  | append_singleton l e ih =>
      obtain ⟨hl, he⟩ := conforms_append.mp h
      have hcount := ih hl
      simp only [List.countP_append, List.countP_singleton, since_append]
      by_cases hq : q e = true
      · rw [if_pos (he hq)] at hcount
        by_cases hp : p e = true <;> simp only [hp, hq, not_true_eq_false, and_false, or_false,
          if_true, Bool.false_eq_true, if_false] <;> omega
      · by_cases hp : p e = true
        · simp only [hp, hq, true_or, if_true, Bool.false_eq_true, if_false]
          split at hcount <;> omega
        · simpa only [hp, hq, false_or, not_false_eq_true, and_true, Bool.false_eq_true, if_false,
            Nat.add_zero] using hcount

/-- What began and does not hold any more was ended. -/
theorem exists_mem_of_not_since {e : α} (he : e ∈ l) (hp : p e = true)
    (h : ¬ Since (p ·) (q ·) l) : ∃ x ∈ l, q x = true := by
  by_contra hnone
  have hq : ∀ x ∈ l, ¬ q x = true := fun x hx hqx => hnone ⟨x, hx, hqx⟩
  obtain ⟨l₁, l₂, rfl⟩ := List.append_of_mem he
  exact h ⟨l₁, e, l₂, rfl, hp, fun x hx => hq x (by simp [hx])⟩

/-- If `p` happened once and every `q` is allowed only since `p`, then `q` happened once, or not yet
while `p` still holds. -/
theorem countP_of_conforms (h : Conforms (fun pre e => q e = true → Since (p ·) (q ·) pre) l)
    (hp : l.countP p = 1) : l.countP q = if Since (p ·) (q ·) l then 0 else 1 := by
  have hle := countP_le_of_conforms h
  split
  · rw [if_pos ‹_›, hp] at hle
    omega
  · obtain ⟨e, he, hpe⟩ := List.countP_pos_iff.mp (show 0 < l.countP p by omega)
    have hq : 0 < l.countP q := List.countP_pos_iff.mpr (exists_mem_of_not_since he hpe ‹_›)
    rw [if_neg ‹_›, hp] at hle
    omega

end Count

end Vmb.Lib

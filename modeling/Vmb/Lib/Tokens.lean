/-
# Vmb.Lib.Tokens -- things that are in one place at a time

A token is something that is given out, kept, and given back once: a handle, an allocation. At any
moment it is somewhere: in the hand of a thread, or in a table under a key. `Placed` says that no token
is in two places and that every token in a place is live; and, when `E` holds, that every live token is
in a place. `E` is the promise that a token is never put on top of another one, which would then be
lost. A step of a thread brings a new token, moves one or gives one back, and keeps it (`Placed.step`).
-/
import Mathlib.Data.Sum.Basic

namespace Vmb.Lib

variable {L T : Type} [DecidableEq L]

/-- Which tokens are live, and what is in each place. -/
structure Places (L T : Type) where
  live : T → Prop
  content : L → Option T

namespace Places

/-- What a step does with the tokens. -/
inductive Step (E : Prop) (p p' : Places L T) : Prop where
  | keep (live : ∀ y, p'.live y ↔ p.live y) (content : p'.content = p.content)
  /-- A new token. -/
  | receive (a : L) (x : T) (fresh : ¬ p.live x) (empty : E → p.content a = none)
      (live : ∀ y, p'.live y ↔ p.live y ∨ y = x)
      (content : p'.content = Function.update p.content a (some x))
  /-- A token goes from one place to another. -/
  | move (a b : L) (x : T) (held : p.content a = some x) (other : b ≠ a)
      (empty : E → p.content b = none) (live : ∀ y, p'.live y ↔ p.live y)
      (content : p'.content = Function.update (Function.update p.content a none) b (some x))
  /-- A token is given back. -/
  | giveBack (a : L) (x : T) (held : p.content a = some x) (live : ∀ y, p'.live y ↔ p.live y ∧ y ≠ x)
      (content : p'.content = Function.update p.content a none)

/-- Every token in a place is live and in no other place; and every live token is in a place, if `E`. -/
structure Placed (E : Prop) (p : Places L T) : Prop where
  live : ∀ a x, p.content a = some x → p.live x
  unique : ∀ a b x, p.content a = some x → p.content b = some x → a = b
  somewhere : E → ∀ x, p.live x → ∃ a, p.content a = some x

variable {E : Prop} {p p' : Places L T}

omit [DecidableEq L] in
theorem Placed.empty (hlive : ∀ x, ¬ p.live x) (hcontent : ∀ a, p.content a = none) : p.Placed E where
  live a x hx := by
    rw [hcontent a] at hx
    cases hx
  unique a b x hx := by
    rw [hcontent a] at hx
    cases hx
  somewhere _ x hx := absurd hx (hlive x)

/-- A place after an update: the one that was updated, or another one as it was. -/
theorem update_eq_some {f : L → Option T} {a b : L} {o : Option T} {x : T} :
    Function.update f a o b = some x ↔ b = a ∧ o = some x ∨ b ≠ a ∧ f b = some x := by
  rcases eq_or_ne b a with rfl | hne
  · rw [Function.update_self]
    simp
  · rw [Function.update_of_ne hne]
    simp [hne]

theorem Placed.receive (h : p.Placed E) {a : L} {x : T} (fresh : ¬ p.live x)
    (empty : E → p.content a = none) (hlive : ∀ y, p'.live y ↔ p.live y ∨ y = x)
    (hcontent : p'.content = Function.update p.content a (some x)) : p'.Placed E := by
  -- the new token was nowhere, since it was not live
  have hnowhere : ∀ b, p.content b ≠ some x := fun b hb => fresh (h.live b x hb)
  refine ⟨fun b y hy => ?_, fun b c y hb hc => ?_, fun hE y hy => ?_⟩
  · rw [hcontent, update_eq_some] at hy
    rcases hy with ⟨-, hy⟩ | ⟨-, hy⟩
    · exact (hlive y).mpr (Or.inr (Option.some.inj hy).symm)
    · exact (hlive y).mpr (Or.inl (h.live b y hy))
  · rw [hcontent, update_eq_some] at hb hc
    rcases hb with ⟨rfl, hb⟩ | ⟨-, hb⟩ <;> rcases hc with ⟨rfl, hc⟩ | ⟨-, hc⟩
    · rfl
    · cases hb
      exact absurd hc (hnowhere c)
    · cases hc
      exact absurd hb (hnowhere b)
    · exact h.unique b c y hb hc
  · rw [hcontent]
    rcases (hlive y).mp hy with hy | rfl
    · obtain ⟨b, hb⟩ := h.somewhere hE y hy
      refine ⟨b, update_eq_some.mpr (Or.inr ⟨?_, hb⟩)⟩
      rintro rfl
      rw [empty hE] at hb
      cases hb
    · exact ⟨a, Function.update_self ..⟩

theorem Placed.move (h : p.Placed E) {a b : L} {x : T} (held : p.content a = some x) (other : b ≠ a)
    (empty : E → p.content b = none) (hlive : ∀ y, p'.live y ↔ p.live y)
    (hcontent : p'.content = Function.update (Function.update p.content a none) b (some x)) :
    p'.Placed E := by
  -- a place that still has its old token
  have hold : ∀ c y, Function.update p.content a none c = some y → c ≠ a ∧ p.content c = some y := by
    intro c y hc
    rcases update_eq_some.mp hc with ⟨-, hc⟩ | hc
    · cases hc
    · exact hc
  refine ⟨fun c y hy => ?_, fun c d y hc hd => ?_, fun hE y hy => ?_⟩
  · rw [hcontent, update_eq_some] at hy
    refine (hlive y).mpr ?_
    rcases hy with ⟨-, hy⟩ | ⟨-, hy⟩
    · cases hy
      exact h.live a x held
    · exact h.live c y (hold c y hy).2
  · rw [hcontent, update_eq_some] at hc hd
    rcases hc with ⟨rfl, hc⟩ | ⟨-, hc⟩ <;> rcases hd with ⟨rfl, hd⟩ | ⟨-, hd⟩
    · rfl
    · cases hc
      obtain ⟨hne, hd⟩ := hold d x hd
      exact absurd (h.unique d a x hd held) hne
    · cases hd
      obtain ⟨hne, hc⟩ := hold c x hc
      exact absurd (h.unique c a x hc held) hne
    · exact h.unique c d y (hold c y hc).2 (hold d y hd).2
  · rw [hcontent]
    obtain ⟨c, hc⟩ := h.somewhere hE y ((hlive y).mp hy)
    rcases eq_or_ne c a with rfl | hne
    · rw [held] at hc
      cases hc
      exact ⟨b, Function.update_self ..⟩
    · have hcb : c ≠ b := by
        rintro rfl
        rw [empty hE] at hc
        cases hc
      exact ⟨c, update_eq_some.mpr (Or.inr ⟨hcb, update_eq_some.mpr (Or.inr ⟨hne, hc⟩)⟩)⟩

theorem Placed.giveBack (h : p.Placed E) {a : L} {x : T} (held : p.content a = some x)
    (hlive : ∀ y, p'.live y ↔ p.live y ∧ y ≠ x)
    (hcontent : p'.content = Function.update p.content a none) : p'.Placed E := by
  have hold : ∀ c y, p'.content c = some y → c ≠ a ∧ p.content c = some y := by
    intro c y hc
    rw [hcontent] at hc
    rcases update_eq_some.mp hc with ⟨-, hc⟩ | hc
    · cases hc
    · exact hc
  refine ⟨fun c y hy => ?_, fun c d y hc hd => h.unique c d y (hold c y hc).2 (hold d y hd).2,
    fun hE y hy => ?_⟩
  · obtain ⟨hne, hy⟩ := hold c y hy
    refine (hlive y).mpr ⟨h.live c y hy, ?_⟩
    rintro rfl
    exact hne (h.unique c a y hy held)
  · obtain ⟨hy, hne⟩ := (hlive y).mp hy
    obtain ⟨c, hc⟩ := h.somewhere hE y hy
    refine ⟨c, ?_⟩
    rw [hcontent]
    refine update_eq_some.mpr (Or.inr ⟨?_, hc⟩)
    rintro rfl
    rw [held] at hc
    exact hne (Option.some.inj hc).symm

/-- **A step keeps every token in one place.** -/
theorem Placed.step (h : p.Placed E) (hstep : Step E p p') : p'.Placed E := by
  cases hstep with
  | keep live content =>
      refine ⟨fun a x hx => ?_, ?_, fun hE x hx => ?_⟩
      · rw [content] at hx
        exact (live x).mpr (h.live a x hx)
      · rw [content]
        exact h.unique
      · rw [content]
        exact h.somewhere hE x ((live x).mp hx)
  | receive a x fresh empty live content => exact h.receive fresh empty live content
  | move a b x held other empty live content => exact h.move held other empty live content
  | giveBack a x held live content => exact h.giveBack held live content

/-! ## Hands and a table -/

section Split

variable {ι κ : Type} [DecidableEq ι] [DecidableEq κ] {live live' : T → Prop} {hands : ι → Option T}
  {table : κ → Option T} {t : ι} {k : κ} {x : T}

/-- The places are the hands of threads and the keys of a table. -/
def split (live : T → Prop) (hands : ι → Option T) (table : κ → Option T) : Places (ι ⊕ κ) T :=
  ⟨live, Sum.elim hands table⟩

theorem Step.received (fresh : ¬ live x) (empty : E → hands t = none)
    (hlive : ∀ y, live' y ↔ live y ∨ y = x) :
    Step E (split live hands table) (split live' (Function.update hands t (some x)) table) :=
  .receive (Sum.inl t) x fresh empty hlive Sum.update_elim_inl.symm

theorem Step.stored (held : hands t = some x) (empty : E → table k = none)
    (hlive : ∀ y, live' y ↔ live y) :
    Step E (split live hands table)
      (split live' (Function.update hands t none) (Function.update table k (some x))) :=
  .move (Sum.inl t) (Sum.inr k) x held Sum.inr_ne_inl empty hlive
    (by unfold split; rw [Sum.update_elim_inl, Sum.update_elim_inr])

theorem Step.taken (stored : table k = some x) (empty : E → hands t = none)
    (hlive : ∀ y, live' y ↔ live y) :
    Step E (split live hands table)
      (split live' (Function.update hands t (some x)) (Function.update table k none)) :=
  .move (Sum.inr k) (Sum.inl t) x stored Sum.inl_ne_inr empty hlive
    (by unfold split; rw [Sum.update_elim_inr, Sum.update_elim_inl])

theorem Step.returned (held : hands t = some x) (hlive : ∀ y, live' y ↔ live y ∧ y ≠ x) :
    Step E (split live hands table) (split live' (Function.update hands t none) table) :=
  .giveBack (Sum.inl t) x held hlive Sum.update_elim_inl.symm

end Split

end Places

end Vmb.Lib

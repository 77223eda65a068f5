/-
# Vmb.Lib.Teardown -- what one drop destroys, and the locks it holds meanwhile

Objects own each other through counted references. Giving up the last reference to an object destroys
it, and its destructor gives up what it owns in turn. `Ownership.release` says what goes with one
reference: a `Destroyed` forest, in which an object stands inside the object whose destructor destroyed
it.

A destructor takes locks. Most of them it holds by themselves, one after another; under one of them,
its guard, the owned objects go. So the guards nest as the destroyed objects do, and a thread that
locks what it already holds waits for itself for ever. `exec_ops_iff` says when that happens: exactly
when an object is destroyed inside another one with the same guard.
-/
import Mathlib.Data.Fintype.Card
import Mathlib.Data.Fintype.EquivFin
import Mathlib.Data.List.Basic
import Mathlib.Logic.Relation

namespace Vmb.Lib

variable {α μ : Type}

/-! ## Lock operations of one thread -/

inductive LockOp (μ : Type) where
  | lock (m : μ)
  | unlock (m : μ)

section Exec

variable [DecidableEq μ]

/-- The mutexes the thread holds in the end, or nothing when it waits for a mutex it holds. -/
def exec : List (LockOp μ) → List μ → Option (List μ)
  | [], held => some held
  | .lock m :: ops, held => if m ∈ held then none else exec ops (m :: held)
  | .unlock m :: ops, held => exec ops (held.erase m)

theorem exec_append (ops ops' : List (LockOp μ)) (held : List μ) :
    exec (ops ++ ops') held = (exec ops held).bind (exec ops') := by
  induction ops generalizing held with
  | nil => rfl
  | cons op ops ih =>
      cases op with
      | lock m =>
          simp only [List.cons_append, exec]
          split
          · rfl
          · exact ih (m :: held)
      | unlock m => exact ih (held.erase m)

/-- The thread is stuck where it locks a mutex it holds, and nowhere else. -/
theorem exec_eq_none_iff (ops : List (LockOp μ)) (held : List μ) :
    exec ops held = none ↔
      ∃ ops₁ m ops₂ held', ops = ops₁ ++ .lock m :: ops₂ ∧ exec ops₁ held = some held' ∧
        m ∈ held' := by
  constructor
  · intro h
    induction ops generalizing held with
    | nil => cases h
    | cons op ops ih =>
        cases op with
        | lock m =>
            by_cases hm : m ∈ held
            · exact ⟨[], m, ops, held, rfl, rfl, hm⟩
            · obtain ⟨ops₁, m', ops₂, held', rfl, hrun, hm'⟩ :=
                ih (m :: held) (by rw [← h, exec, if_neg hm])
              exact ⟨.lock m :: ops₁, m', ops₂, held', rfl, by rw [exec, if_neg hm, hrun], hm'⟩
        | unlock m =>
            obtain ⟨ops₁, m', ops₂, held', rfl, hrun, hm'⟩ := ih (held.erase m) h
            exact ⟨.unlock m :: ops₁, m', ops₂, held', rfl, hrun, hm'⟩
  · rintro ⟨ops₁, m, ops₂, held', rfl, hrun, hm⟩
    rw [exec_append, hrun]
    exact if_pos hm

end Exec

/-- Mutexes that are locked and released one after another. -/
def alone (ms : List μ) : List (LockOp μ) := ms.flatMap fun m => [.lock m, .unlock m]

/-- The operations `inside`, while `m` is held. -/
def under (m : μ) (inside : List (LockOp μ)) : List (LockOp μ) := .lock m :: (inside ++ [.unlock m])

theorem exec_alone [DecidableEq μ] {ms held : List μ} (h : ∀ m ∈ ms, m ∉ held) :
    exec (alone ms) held = some held := by
  induction ms with
  | nil => rfl
  | cons m ms ih =>
      obtain ⟨hm, hms⟩ := List.forall_mem_cons.mp h
      have hstep : exec (alone (m :: ms)) held = exec (alone ms) ((m :: held).erase m) := if_neg hm
      rw [hstep, List.erase_cons_head]
      exact ih hms

/-! ## Destroyed objects -/

/-- The objects that go one after another, each with those that go inside its destructor. -/
inductive Destroyed (α : Type) where
  | nil
  | node (a : α) (inside rest : Destroyed α)

namespace Destroyed

def append : Destroyed α → Destroyed α → Destroyed α
  | .nil, d => d
  | .node a inside rest, d => .node a inside (rest.append d)

/-- `a` is destroyed. -/
def Mem (a : α) : Destroyed α → Prop
  | .nil => False
  | .node b inside rest => a = b ∨ inside.Mem a ∨ rest.Mem a

/-- `b` is destroyed inside the destructor of `a`, at any depth. -/
def Inside (a b : α) : Destroyed α → Prop
  | .nil => False
  | .node c inside rest => a = c ∧ inside.Mem b ∨ inside.Inside a b ∨ rest.Inside a b

theorem mem_append {a : α} {d d' : Destroyed α} : (d.append d').Mem a ↔ d.Mem a ∨ d'.Mem a := by
  induction d with
  | nil => exact ⟨Or.inr, fun h => h.resolve_left id⟩
  | node b inside rest _ ih => simp only [append, Mem, ih, or_assoc]

theorem inside_append {a b : α} {d d' : Destroyed α} :
    (d.append d').Inside a b ↔ d.Inside a b ∨ d'.Inside a b := by
  induction d with
  | nil => exact ⟨Or.inr, fun h => h.resolve_left id⟩
  | node c inside rest _ ih => simp only [append, Inside, ih, or_assoc]

/-- `p a inside` for every destroyed object `a`, with what is destroyed inside it. -/
def All (p : α → Destroyed α → Prop) : Destroyed α → Prop
  | .nil => True
  | .node a inside rest => p a inside ∧ inside.All p ∧ rest.All p

theorem all_append {p : α → Destroyed α → Prop} {d d' : Destroyed α} (h : d.All p) (h' : d'.All p) :
    (d.append d').All p := by
  induction d with
  | nil => exact h'
  | node a inside rest _ ih => exact ⟨h.1, h.2.1, ih h.2.2⟩

/-- The lock operations of all destructors, where `dtor a inside` are those of the destructor of `a`
around those of what it owns. -/
def ops (dtor : α → List (LockOp μ) → List (LockOp μ)) : Destroyed α → List (LockOp μ)
  | .nil => []
  | .node a inside rest => dtor a (inside.ops dtor) ++ rest.ops dtor

theorem ops_congr {dtor dtor' : α → List (LockOp μ) → List (LockOp μ)} {d : Destroyed α}
    (h : d.All fun a inside => dtor a (inside.ops dtor') = dtor' a (inside.ops dtor')) :
    d.ops dtor = d.ops dtor' := by
  induction d with
  | nil => rfl
  | node a inside rest ihinside ihrest =>
      obtain ⟨ha, hinside, hrest⟩ := h
      simp only [ops]
      rw [ihinside hinside, ha, ihrest hrest]

end Destroyed

/-! ## What goes with a reference -/

/-- Finitely many objects and what their destructors give up, in this order. No object owns itself
through others. -/
structure Ownership (α : Type) where
  count : Nat
  object : Fin count → α
  owned : Fin count → List (Fin count)
  acyclic : ∀ i, ¬ Relation.TransGen (fun j i => j ∈ owned i) i i

namespace Ownership

/-- `j` is owned by `i`. -/
def Owns (G : Ownership α) (j i : Fin G.count) : Prop := j ∈ G.owned i

theorem wellFounded (G : Ownership α) : WellFounded G.Owns := by
  have htrans : IsTrans _ (Relation.TransGen G.Owns) := ⟨fun _ _ _ => Relation.TransGen.trans⟩
  have hirrefl : Std.Irrefl (Relation.TransGen G.Owns) := ⟨G.acyclic⟩
  have htransGen := Finite.wellFounded_of_trans_of_irrefl (Relation.TransGen G.Owns)
  exact Subrelation.wf Relation.TransGen.single htransGen

/-- Give up references one after another. -/
def releaseAll {ι σ : Type} (release : ι → σ → Destroyed α × σ) : List ι → σ → Destroyed α × σ
  | [], strong => (.nil, strong)
  | i :: is, strong =>
    let (d, strong) := release i strong
    let (ds, strong) := releaseAll release is strong
    (d.append ds, strong)

/-- Give up one reference to `i`, when `strong` counts the references to every object. The last one
destroys the object, and its destructor gives up what it owns. -/
def release (G : Ownership α) (i : Fin G.count) (strong : Fin G.count → Nat) :
    Destroyed α × (Fin G.count → Nat) :=
  if 1 < strong i then (.nil, Function.update strong i (strong i - 1))
  else
    let (d, strong) := releaseAll (fun j : { j // j ∈ G.owned i } => G.release j.1) (G.owned i).attach
      (Function.update strong i 0)
    (.node (G.object i) d .nil, strong)
termination_by G.wellFounded.wrap i
decreasing_by exact j.2

theorem releaseAll_map {ι κ σ : Type} (release : ι → σ → Destroyed α × σ) (f : κ → ι) (ks : List κ)
    (strong : σ) :
    releaseAll (fun k => release (f k)) ks strong = releaseAll release (ks.map f) strong := by
  induction ks generalizing strong with
  | nil => rfl
  | cons k ks ih =>
      simp only [List.map_cons, releaseAll]
      rw [ih]

/-- The last reference destroys the object. -/
theorem release_of_le {G : Ownership α} {i : Fin G.count} {strong : Fin G.count → Nat}
    (h : strong i ≤ 1) : G.release i strong =
      (.node (G.object i) (releaseAll G.release (G.owned i) (Function.update strong i 0)).1 .nil,
        (releaseAll G.release (G.owned i) (Function.update strong i 0)).2) := by
  rw [release, if_neg (not_lt.mpr h), releaseAll_map G.release Subtype.val, List.attach_map_subtype_val]

theorem all_releaseAll {ι σ : Type} {release : ι → σ → Destroyed α × σ} {p : α → Destroyed α → Prop}
    {is : List ι} {strong : σ} (h : ∀ i strong, (release i strong).1.All p) :
    (releaseAll release is strong).1.All p := by
  induction is generalizing strong with
  | nil => trivial
  | cons i is ih => exact Destroyed.all_append (h i strong) ih

theorem mem_releaseAll {ι σ : Type} {release : ι → σ → Destroyed α × σ} {is : List ι} {strong : σ}
    {a : α} (h : (releaseAll release is strong).1.Mem a) :
    ∃ i ∈ is, ∃ strong, (release i strong).1.Mem a := by
  induction is generalizing strong with
  | nil => exact h.elim
  | cons i is ih =>
      rcases Destroyed.mem_append.mp h with h | h
      · exact ⟨i, List.mem_cons_self, strong, h⟩
      · obtain ⟨j, hj, hmem⟩ := ih h
        exact ⟨j, List.mem_cons_of_mem i hj, hmem⟩

theorem inside_releaseAll {ι σ : Type} {release : ι → σ → Destroyed α × σ} {is : List ι}
    {strong : σ} {a b : α} (h : (releaseAll release is strong).1.Inside a b) :
    ∃ i ∈ is, ∃ strong, (release i strong).1.Inside a b := by
  induction is generalizing strong with
  | nil => exact h.elim
  | cons i is ih =>
      rcases Destroyed.inside_append.mp h with h | h
      · exact ⟨i, List.mem_cons_self, strong, h⟩
      · obtain ⟨j, hj, hmem⟩ := ih h
        exact ⟨j, List.mem_cons_of_mem i hj, hmem⟩

variable {G : Ownership α}

/-- An object that owns nothing takes nothing along. -/
theorem all_release {p : α → Destroyed α → Prop}
    (hp : ∀ x inside, (G.owned x = [] → inside = .nil) → p (G.object x) inside) (i : Fin G.count)
    (strong : Fin G.count → Nat) : (G.release i strong).1.All p := by
  induction i using G.wellFounded.induction generalizing strong with
  | _ i ih =>
      rw [release]
      split
      · trivial
      · refine ⟨hp i _ fun hnone => ?_, all_releaseAll fun j strong => ih j.1 j.2 strong, trivial⟩
        rw [List.attach_eq_nil_iff.mpr hnone]
        rfl

/-- What goes with a reference is owned through it. -/
theorem mem_release {i : Fin G.count} {strong : Fin G.count → Nat} {a : α}
    (h : (G.release i strong).1.Mem a) : ∃ x, Relation.ReflTransGen G.Owns x i ∧ G.object x = a := by
  induction i using G.wellFounded.induction generalizing strong with
  | _ i ih =>
      rw [release] at h
      split at h
      · exact h.elim
      · rcases h with rfl | h | h
        · exact ⟨i, .refl, rfl⟩
        · obtain ⟨j, -, strong, hj⟩ := mem_releaseAll h
          obtain ⟨x, hx, rfl⟩ := ih j.1 j.2 hj
          exact ⟨x, hx.tail j.2, rfl⟩
        · exact h.elim

/-- What is destroyed inside an object is owned by it. -/
theorem inside_release {i : Fin G.count} {strong : Fin G.count → Nat} {a b : α}
    (h : (G.release i strong).1.Inside a b) :
    ∃ x y, Relation.ReflTransGen G.Owns x i ∧ Relation.TransGen G.Owns y x ∧ G.object x = a ∧
      G.object y = b := by
  induction i using G.wellFounded.induction generalizing strong with
  | _ i ih =>
      rw [release] at h
      split at h
      · exact h.elim
      · rcases h with ⟨rfl, h⟩ | h | h
        · obtain ⟨j, -, strong, hj⟩ := mem_releaseAll h
          obtain ⟨y, hy, rfl⟩ := mem_release hj
          exact ⟨i, y, .refl, .tail' hy j.2, rfl, rfl⟩
        · obtain ⟨j, -, strong, hj⟩ := inside_releaseAll h
          obtain ⟨x, y, hx, hy, rfl, rfl⟩ := ih j.1 j.2 hj
          exact ⟨x, y, hx.tail j.2, hy, rfl, rfl⟩
        · exact h.elim

end Ownership

/-! ## Destructors that hold one lock while the owned objects go -/

/-- The locks of a destructor. -/
structure Destructor (μ : Type) where
  before : List μ
  /-- The lock under which the owned objects go. -/
  guard : Option μ
  after : List μ

/-- What is held by the destructor while the owned objects go. -/
def Destructor.around (d : Destructor μ) (inside : List (LockOp μ)) : List (LockOp μ) :=
  match d.guard with
  | none => inside
  | some m => under m inside

def Destructor.ops (d : Destructor μ) (inside : List (LockOp μ)) : List (LockOp μ) :=
  alone d.before ++ d.around inside ++ alone d.after

variable {dtor : α → Destructor μ}

/-- No destructor takes a guard by itself. -/
def Separate (dtor : α → Destructor μ) : Prop :=
  ∀ a b m, (dtor a).guard = some m → m ∉ (dtor b).before ∧ m ∉ (dtor b).after

/-- The guards of the destroyed objects are free while `held` are held: none of them is held already,
and none of them is taken inside itself. -/
structure Free (dtor : α → Destructor μ) (held : List μ) (d : Destroyed α) : Prop where
  outside : ∀ a, d.Mem a → ∀ m, (dtor a).guard = some m → m ∉ held
  inside : ∀ a b, d.Inside a b → ∀ m, (dtor a).guard = some m → (dtor b).guard ≠ some m

theorem free_nil (held : List μ) : Free dtor held .nil := ⟨fun _ => False.elim, fun _ _ => False.elim⟩

theorem free_node {held : List μ} {a : α} {inside rest : Destroyed α} :
    Free dtor held (.node a inside rest) ↔
      (∀ m, (dtor a).guard = some m → m ∉ held) ∧
        Free dtor ((dtor a).guard.toList ++ held) inside ∧ Free dtor held rest := by
  constructor
  · intro h
    refine ⟨h.outside a (Or.inl rfl), ⟨fun b hb m hm => ?_, fun b c hbc => ?_⟩,
      fun b hb => h.outside b (Or.inr (Or.inr hb)), fun b c hbc => h.inside b c (Or.inr (Or.inr hbc))⟩
    · rw [List.mem_append, Option.mem_toList, not_or]
      exact ⟨fun ha => h.inside a b (Or.inl ⟨rfl, hb⟩) m ha hm,
        h.outside b (Or.inr (Or.inl hb)) m hm⟩
    · exact h.inside b c (Or.inr (Or.inl hbc))
  · rintro ⟨ha, hinside, hrest⟩
    refine ⟨?_, ?_⟩
    · rintro b (rfl | hb | hb) m hm
      · exact ha m hm
      · exact fun hheld => hinside.outside b hb m hm (List.mem_append_right _ hheld)
      · exact hrest.outside b hb m hm
    · rintro b c (⟨rfl, hc⟩ | hbc | hbc) m hb hc'
      · exact hinside.outside c hc m hc' (List.mem_append_left _ (Option.mem_toList.mpr hb))
      · exact hinside.inside b c hbc m hb hc'
      · exact hrest.inside b c hbc m hb hc'

section

variable [DecidableEq μ]

/-- A destructor whose owned objects go without getting stuck, or not. -/
theorem exec_around {d : Destructor μ} {held : List μ} (hfree : ∀ m, d.guard = some m → m ∉ held)
    (inside : List (LockOp μ)) :
    (exec inside (d.guard.toList ++ held) = some (d.guard.toList ++ held) →
      exec (d.around inside) held = some held) ∧
    (exec inside (d.guard.toList ++ held) = none → exec (d.around inside) held = none) := by
  rcases hg : d.guard with - | m
  · simp only [Destructor.around, hg]
    exact ⟨id, id⟩
  · have hunder : exec (d.around inside) held =
        (exec inside (m :: held)).bind (exec [.unlock m]) := by
      simp only [Destructor.around, hg, under, exec, if_neg (hfree m hg), exec_append]
    rw [hunder]
    show (exec inside (m :: held) = some (m :: held) → _) ∧ (exec inside (m :: held) = none → _)
    constructor
    · intro h
      rw [h]
      exact congrArg some (List.erase_cons_head m held)
    · intro h
      rw [h]
      rfl

/-- A destructor whose guard is held already. -/
theorem exec_around_of_mem {d : Destructor μ} {held : List μ} {m : μ} (hg : d.guard = some m)
    (hm : m ∈ held) (inside : List (LockOp μ)) : exec (d.around inside) held = none := by
  simp only [Destructor.around, hg, under, exec, if_pos hm]

theorem exec_ops_cons {a : α} {inside rest : Destroyed α} {held : List μ}
    (hbefore : ∀ m ∈ (dtor a).before, m ∉ held) :
    exec ((Destroyed.node a inside rest).ops fun a => (dtor a).ops) held =
      ((exec ((dtor a).around (inside.ops fun a => (dtor a).ops)) held).bind
        (exec (alone (dtor a).after))).bind (exec (rest.ops fun a => (dtor a).ops)) := by
  simp only [Destroyed.ops, Destructor.ops, exec_append, exec_alone hbefore, Option.bind_some]

/-- **Locks that nest as the destroyed objects do**: the thread gets through exactly if the guards are
free. The induction is on the forest, with the guards of the objects around it held. -/
theorem exec_ops (hsep : Separate dtor) (d : Destroyed α) (held : List μ)
    (hheld : ∀ m ∈ held, ∃ a, (dtor a).guard = some m) :
    (Free dtor held d → exec (d.ops fun a => (dtor a).ops) held = some held) ∧
      (¬ Free dtor held d → exec (d.ops fun a => (dtor a).ops) held = none) := by
  induction d generalizing held with
  | nil => exact ⟨fun _ => rfl, fun h => absurd (free_nil held) h⟩
  | node a inside rest ihinside ihrest =>
      have hbefore : ∀ m ∈ (dtor a).before, m ∉ held := by
        intro m hm hmem
        obtain ⟨b, hb⟩ := hheld m hmem
        exact (hsep b a m hb).1 hm
      have hafter : ∀ m ∈ (dtor a).after, m ∉ held := by
        intro m hm hmem
        obtain ⟨b, hb⟩ := hheld m hmem
        exact (hsep b a m hb).2 hm
      have hheld' : ∀ m ∈ (dtor a).guard.toList ++ held, ∃ b, (dtor b).guard = some m := by
        intro m hm
        rcases List.mem_append.mp hm with hm | hm
        · exact ⟨a, Option.mem_toList.mp hm⟩
        · exact hheld m hm
      rw [free_node, exec_ops_cons hbefore]
      by_cases hguard : ∀ m, (dtor a).guard = some m → m ∉ held
      · obtain ⟨hthrough, hstuck⟩ := exec_around hguard (inside.ops fun a => (dtor a).ops)
        by_cases hfree : Free dtor ((dtor a).guard.toList ++ held) inside
        · rw [hthrough ((ihinside _ hheld').1 hfree)]
          simp only [Option.bind_some, exec_alone hafter]
          constructor
          · exact fun h => (ihrest held hheld).1 h.2.2
          · exact fun h => (ihrest held hheld).2 fun hrest => h ⟨hguard, hfree, hrest⟩
        · rw [hstuck ((ihinside _ hheld').2 hfree)]
          exact ⟨fun h => absurd h.2.1 hfree, fun _ => rfl⟩
      · obtain ⟨m, hm, hmem⟩ : ∃ m, (dtor a).guard = some m ∧ m ∈ held := by
          simpa only [not_forall, not_not, exists_prop] using hguard
        rw [exec_around_of_mem hm hmem]
        exact ⟨fun h => absurd h.1 hguard, fun _ => rfl⟩

/-- A thread gets through a teardown with nothing held, or gets stuck in it. -/
theorem exec_ops_cases (hsep : Separate dtor) (d : Destroyed α) :
    exec (d.ops fun a => (dtor a).ops) [] = some [] ∨ exec (d.ops fun a => (dtor a).ops) [] = none := by
  obtain ⟨hfree, hstuck⟩ := exec_ops hsep d [] fun m hm => absurd hm List.not_mem_nil
  by_cases h : Free dtor [] d
  · exact Or.inl (hfree h)
  · exact Or.inr (hstuck h)

/-- **A thread gets through a teardown exactly if no object is destroyed inside another one with the
same guard.** -/
theorem exec_ops_iff (hsep : Separate dtor) (d : Destroyed α) :
    exec (d.ops fun a => (dtor a).ops) [] = some [] ↔
      ∀ a b, d.Inside a b → ∀ m, (dtor a).guard = some m → (dtor b).guard ≠ some m := by
  obtain ⟨hfree, hstuck⟩ := exec_ops hsep d [] fun m hm => absurd hm List.not_mem_nil
  constructor
  · intro hexec
    by_contra hnot
    rw [hstuck fun h => hnot h.inside] at hexec
    cases hexec
  · exact fun h => hfree ⟨fun _ _ _ _ => List.not_mem_nil, h⟩

end

end Vmb.Lib

/-
# Vmb.Lib.Shelves -- tables with a part for each thread

Threads file entries in shared tables under keys of their own (`Vmb.Lib.Fresh`). Every entry has a guard,
the key whose thread may change it, and a call is about some keys: it looks at the entries these guard,
and changes no others (`Shelves.Obeys`). `Shelves.keeping` is the contract of a thread whose calls are
about its own keys; its view is its shelf, the keys it has filed and the entries it would have if it were
alone. If every thread keeps it, then in every interleaving the entries a thread guards are those of its
shelf, and the tables hold no others (`Stocked.step`): nothing is lost and nothing is left behind.

Entries that are not `Own` may be taken by anyone. Of these the tables hold some that are on the shelves.
-/
import Mathlib.Data.Set.Function
import Vmb.Lib.Fresh
import Vmb.Lib.Trust

namespace Vmb.Lib

variable {S : Signature} {σ ι A X R K E : Type}

/-- The tables of a machine, as the set of their entries. -/
structure Shelves (D : Register S σ K) (E : Type) where
  entries : σ → Set E
  /-- The key whose thread may change the entry. -/
  guard : E → K
  /-- The keys a call is about. -/
  about : S.Call → Set K
  /-- What a call makes of the entries. -/
  act : S.Call → Set E → Set E
  /-- Nobody takes the entry but the thread that guards it. -/
  Own : E → Prop

/-- The part of a thread. -/
structure Shelf (K E : Type) where
  keys : List K := []
  entries : Set E := ∅

namespace Shelves

variable {D : Register S σ K}

/-- The two sets have the same entries that are guarded by a key of `ks`. -/
def AgreeOn (Z : Shelves D E) (ks : Set K) (es es' : Set E) : Prop :=
  ∀ e, Z.Own e → Z.guard e ∈ ks → (e ∈ es ↔ e ∈ es')

/-- A call does what it says, and only to the entries it is about. -/
structure Obeys (Z : Shelves D E) (m : Machine S σ) : Prop where
  changed : ∀ s c, (∀ k, D.kind c = .file k → ¬ D.Present s k) →
    Z.entries (m s c).2 = Z.act c (Z.entries s)
  frame : ∀ c es e, Z.Own e → Z.guard e ∉ Z.about c → (e ∈ Z.act c es ↔ e ∈ es)
  reads : ∀ c es es', Z.AgreeOn (Z.about c) es es' →
    Z.AgreeOn (Z.about c) (Z.act c es) (Z.act c es')
  /-- What anyone may take is kept, taken or put one by one. -/
  shared : ∀ c es es' e, ¬ Z.Own e → e ∈ Z.act c es → (e ∈ es → e ∈ es') → e ∈ Z.act c es'

/-- The key a call files. -/
def filedBy (D : Register S σ K) (c : S.Call) : List K :=
  match D.kind c with
  | .file k => [k]
  | _ => []

theorem mem_filedBy {c : S.Call} {k : K} : k ∈ filedBy D c ↔ D.kind c = .file k := by
  unfold filedBy
  split
  · rename_i k' hkind
    rw [hkind, List.mem_singleton]
    exact ⟨fun h => h ▸ rfl, fun h => (Filing.file.inj h).symm⟩
  · rename_i hkind
    exact ⟨fun h => absurd h List.not_mem_nil, fun h => absurd h (hkind k)⟩

/-- The calls of a thread are about its own keys. -/
def keeping (Z : Shelves D E) : Contract S (Shelf K E) where
  pre v c := ∀ k ∈ Z.about c, k ∈ v.keys ∨ D.kind c = .file k
  next v c _ := ⟨v.keys ++ filedBy D c, Z.act c v.entries⟩

end Shelves

/-! ## What every call keeps -/

/-- The tables hold what is on the shelves. `filed` are the keys each thread has filed. -/
structure Stocked {D : Register S σ K} (Z : Shelves D E) (shelf : ι → Shelf K E) (filed : ι → List K)
    (s : σ) : Prop where
  keys : ∀ t, ∀ k ∈ (shelf t).keys, k ∈ filed t
  guards : ∀ t, ∀ e ∈ (shelf t).entries, Z.Own e → Z.guard e ∈ (shelf t).keys
  agree : ∀ t, Z.AgreeOn {k | k ∈ (shelf t).keys} (Z.entries s) (shelf t).entries
  nothing : ∀ e ∈ Z.entries s, ∃ t, e ∈ (shelf t).entries

section Stocked

variable {D : Register S σ K} {Z : Shelves D E} {shelf : ι → Shelf K E} {filed filed' : ι → List K}
  {s : σ} {m : Machine S σ} {t : ι} {c : S.Call}

theorem Stocked.init (hnone : Z.entries s = ∅) : Stocked Z (fun _ : ι => {}) (fun _ => []) s where
  keys _ _ hk := absurd hk List.not_mem_nil
  guards _ _ he := absurd he (Set.notMem_empty _)
  agree _ _ _ hk := absurd hk List.not_mem_nil
  nothing e he := absurd (hnone ▸ he) (Set.notMem_empty e)

/-- A key that no thread has filed guards nothing. -/
theorem Stocked.unguarded (h : Stocked Z shelf filed s) {k : K} (hk : ∀ u, k ∉ filed u) {e : E}
    (hown : Z.Own e) (he : Z.guard e = k) : e ∉ Z.entries s ∧ ∀ u, e ∉ (shelf u).entries := by
  have hshelves : ∀ u, e ∉ (shelf u).entries := fun u hmem =>
    hk u (h.keys u k (he ▸ h.guards u e hmem hown))
  refine ⟨fun hmem => ?_, hshelves⟩
  obtain ⟨u, hu⟩ := h.nothing e hmem
  exact hshelves u hu

variable [DecidableEq ι]

/-- **A call of a thread that keeps its contract.** -/
theorem Stocked.step (h : Stocked Z shelf filed s) (hobeys : Z.Obeys m)
    (hpre : Z.keeping.pre (shelf t) c) (hgrow : ∀ u, filed u ⊆ filed' u)
    (hnew : ∀ k, D.kind c = .file k → k ∈ filed' t ∧ ¬ D.Present s k ∧ ∀ u, k ∉ filed u)
    (hapart : ∀ u k, k ∈ filed t → k ∈ filed u → u = t) :
    Stocked Z (Function.update shelf t (Z.keeping.next (shelf t) c (m s c).1)) filed' (m s c).2 := by
  have hchanged := hobeys.changed s c fun k hk => (hnew k hk).2.1
  have habout : ∀ k ∈ Z.about c, k ∈ (shelf t).keys ++ Shelves.filedBy D c := fun k hk =>
    List.mem_append.mpr ((hpre k hk).imp_right Shelves.mem_filedBy.mpr)
  -- the shelf of the thread agrees with the tables on what the call is about, and on a new key
  have hown : Z.AgreeOn {k | k ∈ (shelf t).keys ++ Shelves.filedBy D c} (Z.entries s)
      (shelf t).entries := by
    intro e he hk
    rcases List.mem_append.mp hk with hk | hk
    · exact h.agree t e he hk
    · obtain ⟨htables, hshelves⟩ := h.unguarded (hnew _ (Shelves.mem_filedBy.mp hk)).2.2 he rfl
      exact ⟨fun hmem => absurd hmem htables, fun hmem => absurd hmem (hshelves t)⟩
  have hagree : Z.AgreeOn {k | k ∈ (shelf t).keys ++ Shelves.filedBy D c} (Z.act c (Z.entries s))
      (Z.act c (shelf t).entries) := by
    intro e he hk
    by_cases hc : Z.guard e ∈ Z.about c
    · exact hobeys.reads c _ _ (fun e he hk => hown e he (habout _ hk)) e he hc
    · rw [hobeys.frame c _ e he hc, hobeys.frame c _ e he hc]
      exact hown e he hk
  -- and the call is about no key of another thread
  have hother : ∀ u ≠ t, ∀ k ∈ (shelf u).keys, k ∉ Z.about c := by
    intro u hu k hk hc
    rcases hpre k hc with hmine | hkind
    · exact hu (hapart u k (h.keys t k hmine) (h.keys u k hk))
    · exact (hnew k hkind).2.2 u (h.keys u k hk)
  refine ⟨fun u k hk => ?_, fun u e he hE => ?_, fun u e hE hk => ?_, fun e he => ?_⟩
  · by_cases hu : u = t
    · subst hu
      rw [Function.update_self] at hk
      rcases List.mem_append.mp hk with hk | hk
      · exact hgrow u (h.keys u k hk)
      · exact (hnew k (Shelves.mem_filedBy.mp hk)).1
    · rw [Function.update_of_ne hu] at hk
      exact hgrow u (h.keys u k hk)
  · by_cases hu : u = t
    · subst hu
      rw [Function.update_self] at he ⊢
      by_cases hc : Z.guard e ∈ Z.about c
      · exact habout _ hc
      · exact List.mem_append_left _ (h.guards u e ((hobeys.frame c _ e hE hc).mp he) hE)
    · rw [Function.update_of_ne hu] at he ⊢
      exact h.guards u e he hE
  · rw [hchanged]
    by_cases hu : u = t
    · subst hu
      rw [Function.update_self] at hk ⊢
      exact hagree e hE hk
    · rw [Function.update_of_ne hu] at hk ⊢
      rw [hobeys.frame c _ e hE (hother u hu _ hk)]
      exact h.agree u e hE hk
  · rw [hchanged] at he
    have hstays : ∀ e ∈ Z.entries s, (e ∈ (shelf t).entries → e ∈ Z.act c (shelf t).entries) →
        ∃ u, e ∈ (Function.update shelf t (Z.keeping.next (shelf t) c (m s c).1) u).entries := by
      intro e he hmine
      obtain ⟨u, hmem⟩ := h.nothing e he
      refine ⟨u, ?_⟩
      by_cases hu : u = t
      · subst hu
        rw [Function.update_self]
        exact hmine hmem
      · rw [Function.update_of_ne hu]
        exact hmem
    have hthis : e ∈ Z.act c (shelf t).entries →
        ∃ u, e ∈ (Function.update shelf t (Z.keeping.next (shelf t) c (m s c).1) u).entries :=
      fun hmem => ⟨t, by rw [Function.update_self]; exact hmem⟩
    by_cases hE : Z.Own e
    · by_cases hc : Z.guard e ∈ Z.about c
      · exact hthis ((hagree e hE (habout _ hc)).mp he)
      · exact hstays e ((hobeys.frame c _ e hE hc).mp he) (hobeys.frame c _ e hE hc).mpr
    · by_cases hold : e ∈ Z.entries s
      · exact hstays e hold fun hmem => hobeys.shared c _ _ e hE he fun _ => hmem
      · exact hthis (hobeys.shared c _ _ e hE he fun hmem => absurd hmem hold)

end Stocked

/-! ## Every interleaving -/

section Runs

variable [DecidableEq ι] {D : Register S σ K} {Z : Shelves D E} {m : Machine S σ}
  {perform : A → X → Prog S (R × X)} {rely : Shelf K E → (c : S.Call) → S.Resp c → Prop}
  {Q : X → Shelf K E → Prop} {P : Pool S σ ι X R} {limit first : Nat}

/-- Every thread keeps its contract and counts on its own entries, and the tables hold what is on the
shelves. Between two operations `Q` relates the object of a thread to its shelf. -/
structure Shelved (Z : Shelves D E) (rely : Shelf K E → (c : S.Call) → S.Resp c → Prop)
    (Q : X → Shelf K E → Prop) (first : Nat) (P : Pool S σ ι X R) : Prop where
  sound : P.Sound (Z.keeping.trusting rely) (some {}) (fun _ _ => True) (Trusted Q) fun _ => True
  numbered : Numbered D first P
  stocked : ∃ shelf, Pool.view (Z.keeping.trusting rely) (some {}) P.log = (fun u => some (shelf u)) ∧
    Stocked Z shelf (fun u => (P.holding D u).filed) P.shared

theorem Shelved.init {s : σ} {x : X} (hQ : Q x {}) (hpresent : ∀ k, ¬ D.Present s k)
    (hnone : Z.entries s = ∅) :
    Shelved Z rely Q (D.counter s) (Pool.init s x : Pool S σ ι X R) where
  sound := Pool.sound_init fun v hv => by
    cases hv
    exact hQ
  numbered := Numbered.init hpresent
  stocked := ⟨fun _ => {}, rfl, Stocked.init hnone⟩

/-- **A move keeps the tables**, if every operation keeps the contract and the tables answer a thread as
it counts on. -/
theorem Shelved.move (h : Shelved Z rely Q first P) (hobeys : D.Obeys m limit) (hshelves : Z.Obeys m)
    (hfiles : ∀ a x v, (perform a x).Meets D.discipline (fun _ _ => True) v)
    (hrely : ∀ shelf filed s, Stocked Z shelf filed s → ∀ (t : ι) c, rely (shelf t) c (m s c).1)
    (mv : Move ι A)
    (hperform : ∀ t a, mv = .invoke t a → ∀ x o, Trusted Q x o →
      (perform a x).Meets (Z.keeping.trusting rely) (Trusted fun r v => Q r.2 v) o)
    (hlimit : D.counter (P.move m perform mv).shared ≤ limit) :
    Shelved Z rely Q first (P.move m perform mv) := by
  have hsound : (P.move m perform mv).Sound (Z.keeping.trusting rely) (some {}) (fun _ _ => True)
      (Trusted Q) fun _ => True :=
    h.sound.move mv
      (fun t a x o hmv ho => ((hperform t a hmv x o ho).mono fun r o' hr => ⟨hr, trivial⟩).ensures)
      fun _ _ _ _ => trivial
  have hnumbered := h.numbered.move hobeys hfiles mv hlimit
  obtain ⟨shelf, hview, hstocked⟩ := h.stocked
  rcases P.move_cases m perform mv with ⟨hshared, hlog⟩ | ⟨u, c, rfl, hcalls, hshared, hlog⟩
  · refine ⟨hsound, hnumbered, ⟨shelf, by rw [hlog]; exact hview, ?_⟩⟩
    unfold Pool.holding
    rw [hshared, hlog]
    exact hstocked
  · have hpre : (Z.keeping.trusting rely).pre
        (Pool.view (Z.keeping.trusting rely) (some {}) P.log u) c := h.sound.pre hcalls
    rw [hview] at hpre
    refine ⟨hsound, hnumbered, ⟨Function.update shelf u (Z.keeping.next (shelf u) c (m P.shared c).1),
      ?_, ?_⟩⟩
    · rw [hlog]
      exact view_trusting hview (hrely shelf _ _ hstocked u c)
    · rw [hshared]
      refine hstocked.step hshelves (hpre (shelf u) rfl) (fun u' => (filed_grows hlog u').subset)
        (fun k hkind => ⟨mem_filed hkind hlog, h.numbered.absent hcalls hkind,
          h.numbered.unfiled hcalls hkind⟩) fun u' k hk hk' => ?_
      exact h.numbered.drawn.thread_eq (View.mem_nums_filed hk') (View.mem_nums_filed hk)

/-- **And every schedule.** -/
theorem Shelved.run (h : Shelved Z rely Q first P) (hobeys : D.Obeys m limit) (hshelves : Z.Obeys m)
    (hfiles : ∀ a x v, (perform a x).Meets D.discipline (fun _ _ => True) v)
    (hrely : ∀ shelf filed s, Stocked Z shelf filed s → ∀ (t : ι) c, rely (shelf t) c (m s c).1)
    (moves : List (Move ι A))
    (hperform : ∀ t a, .invoke t a ∈ moves → ∀ x o, Trusted Q x o →
      (perform a x).Meets (Z.keeping.trusting rely) (Trusted fun r v => Q r.2 v) o)
    (hlimit : D.counter (P.run m perform moves).shared ≤ limit) :
    Shelved Z rely Q first (P.run m perform moves) := by
  induction moves generalizing P with
  | nil => exact h
  | cons mv moves ih =>
      have hnext : D.counter (P.move m perform mv).shared ≤ limit :=
        Nat.le_trans (hobeys.counter_le_run (P.move m perform mv) moves) hlimit
      refine ih (h.move hobeys hshelves hfiles hrely mv (fun t a hmv => ?_) hnext)
        (fun t a hmem => hperform t a (List.mem_cons_of_mem _ hmem)) hlimit
      exact hperform t a (hmv ▸ List.mem_cons_self)

/-- Between two operations of a thread, the tables hold its shelf under its keys. -/
theorem Shelved.agree (h : Shelved Z rely Q first P) {t : ι} (hrest : (P.threads t).running = none) :
    ∃ v, Q (P.threads t).object v ∧ Z.AgreeOn {k | k ∈ v.keys} (Z.entries P.shared) v.entries := by
  obtain ⟨shelf, hview, hstocked⟩ := h.stocked
  have hQ := h.sound.resting t hrest
  rw [hview] at hQ
  exact ⟨shelf t, hQ (shelf t) rfl, hstocked.agree t⟩

/-- And when all threads are between two operations, they hold nothing else. -/
theorem Shelved.nothing (h : Shelved Z rely Q first P) (hrest : ∀ t, (P.threads t).running = none) {e : E}
    (he : e ∈ Z.entries P.shared) : ∃ t v, Q (P.threads t).object v ∧ e ∈ v.entries := by
  obtain ⟨shelf, hview, hstocked⟩ := h.stocked
  obtain ⟨t, ht⟩ := hstocked.nothing e he
  have hQ := h.sound.resting t (hrest t)
  rw [hview] at hQ
  exact ⟨t, shelf t, hQ (shelf t) rfl, ht⟩

end Runs

end Vmb.Lib

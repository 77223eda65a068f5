/-
# Vmb.Lib.Tracks -- tables that hold exactly what their users own

A shared table `t` is used by parties `ι`; `own (L i) k v` says that party `i`, in its view `L i`,
owns the entry `k ↦ v`. `Tracks E t own L` says that every owned entry is in the table, that no key
has two owners and that the table has no other entry under a key in `E`. `E k` is the promise that
nobody has abandoned the entry of `k`; under the other keys the table may hold leaked ones.

One change of one party is one change of the table: `set` (a new or replaced entry), `erase`,
`clear` (all entries of the party) and `keep` (none). `forget` is what a leak does. Keys new to the
table are recognised by a counter that bounds every owned identifier (`Bounded`).
-/
import Mathlib.Data.Finmap
import Mathlib.Data.UInt

namespace Vmb.Lib

variable {ι ν K V : Type}

/-- The table `t` holds what the parties own, each key for one owner, and nothing else under the keys in
`E`. -/
structure Tracks (E : K → Prop) (t : K → Option V) (own : ν → K → V → Prop) (L : ι → ν) : Prop where
  covers : ∀ i k v, own (L i) k v → t k = some v
  unique : ∀ i j k v w, own (L i) k v → own (L j) k w → i = j
  owned : ∀ k v, E k → t k = some v → ∃ i, own (L i) k v

namespace Tracks

variable {E : K → Prop} {t t' : K → Option V} {own : ν → K → V → Prop} {L : ι → ν} {v' : ν}

/-- The empty table, while nobody owns anything. -/
theorem empty (ht : ∀ k, t k = none) (hL : ∀ i k v, ¬ own (L i) k v) : Tracks E t own L where
  covers i k v h := absurd h (hL i k v)
  unique i _ k v _ h := absurd h (hL i k v)
  owned k v _ h := by simp [ht] at h

/-- With the promise, the table is exactly the union of what is owned. -/
theorem eq_some_iff (h : Tracks E t own L) {k : K} {v : V} (hE : E k) :
    t k = some v ↔ ∃ i, own (L i) k v :=
  ⟨h.owned k v hE, fun ⟨i, hi⟩ => h.covers i k v hi⟩

/-- A promise about fewer keys. -/
theorem mono {E' : K → Prop} (h : Tracks E t own L) (hE : ∀ k, E' k → E k) : Tracks E' t own L where
  covers := h.covers
  unique := h.unique
  owned k v hk := h.owned k v (hE k hk)

/-- Parties that own the same entries. -/
theorem congr {L' : ι → ν} (h : Tracks E t own L) (hL : ∀ i k v, own (L' i) k v ↔ own (L i) k v) :
    Tracks E t own L' where
  covers i k v hi := h.covers i k v ((hL i k v).mp hi)
  unique i j k v w hi hj := h.unique i j k v w ((hL i k v).mp hi) ((hL j k w).mp hj)
  owned k v hE hk := (h.owned k v hE hk).imp fun i hi => (hL i k v).mpr hi

/-- A key that is not in the table has no owner. -/
theorem not_own_of_none (h : Tracks E t own L) {k : K} (hk : t k = none) (i : ι) (v : V) :
    ¬ own (L i) k v := by
  intro hi
  rw [h.covers i k v hi] at hk
  cases hk

/-- Two tables that hold exactly what the same parties own are the same. -/
theorem eq_table (h : Tracks (fun _ => True) t own L) (h' : Tracks (fun _ => True) t' own L) : t = t' := by
  funext k
  refine Option.ext fun v => ?_
  rw [h.eq_some_iff trivial, h'.eq_some_iff trivial]

/-- More parties join, who own entries that nobody else owns. -/
theorem join {κ : Type} {E' : K → Prop} {M : κ → ν} (h : Tracks E t own L)
    (hM : ∀ j k v, own (M j) k v → t k = some v ∧ ∀ i w, ¬ own (L i) k w)
    (hunique : ∀ j j' k v w, own (M j) k v → own (M j') k w → j = j')
    (hall : ∀ k v, E' k → t k = some v → (∃ i, own (L i) k v) ∨ ∃ j, own (M j) k v) :
    Tracks E' t own (Sum.elim L M) where
  covers i k v hi := by
    rcases i with i | j
    · exact h.covers i k v hi
    · exact (hM j k v hi).1
  unique i₁ i₂ k v w h₁ h₂ := by
    rcases i₁ with i₁ | j₁ <;> rcases i₂ with i₂ | j₂
    · exact congrArg Sum.inl (h.unique i₁ i₂ k v w h₁ h₂)
    · exact absurd h₁ ((hM j₂ k w h₂).2 i₁ v)
    · exact absurd h₂ ((hM j₁ k v h₁).2 i₂ w)
    · exact congrArg Sum.inr (hunique j₁ j₂ k v w h₁ h₂)
  owned k v hE hk := by
    rcases hall k v hE hk with ⟨i, hi⟩ | ⟨j, hj⟩
    · exact ⟨Sum.inl i, hi⟩
    · exact ⟨Sum.inr j, hj⟩

/-- Parties that own nothing join. -/
theorem join_idle {κ : Type} {M : κ → ν} (h : Tracks E t own L) (hM : ∀ j k v, ¬ own (M j) k v) :
    Tracks E t own (Sum.elim L M) :=
  h.join (fun j k v hj => absurd hj (hM j k v)) (fun j _ k v _ hj => absurd hj (hM j k v))
    fun k v hE hk => Or.inl (h.owned k v hE hk)

variable [DecidableEq ι]

/-- The change of one party: it gives up its entries and takes those of `v'`. -/
theorem update (h : Tracks E t own L) (i : ι)
    (hfresh : ∀ k v, own v' k v → (∃ w, own (L i) k w) ∨ t k = none)
    (hnew : ∀ k v, own v' k v → t' k = some v)
    (hother : ∀ k v, t k = some v → (∀ w, ¬ own (L i) k w) → t' k = some v)
    (hback : ∀ k v, E k → t' k = some v → own v' k v ∨ (t k = some v ∧ ∀ w, ¬ own (L i) k w)) :
    Tracks E t' own (Function.update L i v') where
  covers j k v hj := by
    rcases eq_or_ne j i with rfl | hji
    · exact hnew k v (by simpa using hj)
    · rw [Function.update_of_ne hji] at hj
      exact hother k v (h.covers j k v hj) fun w hw => hji (h.unique j i k v w hj hw)
  unique j₁ j₂ k v w h₁ h₂ := by
    -- what the party takes was its own or nobody's, so no other party has it
    have key : ∀ j, j ≠ i → ∀ v w, own v' k v → own (L j) k w → False := by
      intro j hji v w hv hw
      rcases hfresh k v hv with ⟨u, hu⟩ | hnone
      · exact hji (h.unique j i k w u hw hu)
      · exact h.not_own_of_none hnone j w hw
    rcases eq_or_ne j₁ i with rfl | hj₁ <;> rcases eq_or_ne j₂ j₁ with rfl | hj
    · rfl
    · rw [Function.update_of_ne hj] at h₂
      exact absurd h₂ fun h₂ => key j₂ hj v w (by simpa using h₁) h₂
    · rfl
    · rw [Function.update_of_ne hj₁] at h₁
      rcases eq_or_ne j₂ i with rfl | hj₂
      · exact absurd h₁ fun h₁ => key j₁ hj₁ w v (by simpa using h₂) h₁
      · rw [Function.update_of_ne hj₂] at h₂
        exact h.unique j₁ j₂ k v w h₁ h₂
  owned k v hE hk := by
    rcases hback k v hE hk with hv | ⟨hk, hi⟩
    · exact ⟨i, by simpa using hv⟩
    · obtain ⟨j, hj⟩ := h.owned k v hE hk
      have hji : j ≠ i := by
        rintro rfl
        exact hi v hj
      exact ⟨j, by simpa [Function.update_of_ne hji] using hj⟩

/-- The party abandons entries without removing them: only possible where leaks are. -/
theorem forget (h : Tracks E t own L) (i : ι) (hv : ∀ k v, own v' k v → own (L i) k v)
    (hE : ∀ k v, E k → own (L i) k v → own v' k v) :
    Tracks E t own (Function.update L i v') := by
  refine h.update i (fun k v hk => Or.inl ⟨v, hv k v hk⟩) (fun k v hk => h.covers i k v (hv k v hk))
    (fun _ _ hk _ => hk) fun k v hkE hk => ?_
  -- the entry belongs to the party or to somebody else, and stays where it is
  by_cases hi : ∃ w, own (L i) k w
  · obtain ⟨w, hw⟩ := hi
    have hwv : w = v := by simpa [hk] using (h.covers i k w hw).symm
    exact Or.inl (hE k v hkE (hwv ▸ hw))
  · exact Or.inr ⟨hk, fun w hw => hi ⟨w, hw⟩⟩

/-- The party's share of the table does not change. -/
theorem keep (h : Tracks E t own L) (i : ι) (hv : ∀ k v, own v' k v ↔ own (L i) k v) :
    Tracks E t own (Function.update L i v') :=
  h.forget i (fun k v hk => (hv k v).mp hk) fun k v _ hk => (hv k v).mpr hk

variable [DecidableEq K]

/-- The party stores `v` under `k`, a key of its own or a new one. -/
theorem set (h : Tracks E t own L) (i : ι) {k : K} {v : V}
    (hk : (∃ w, own (L i) k w) ∨ t k = none)
    (hv : ∀ k' w, own v' k' w ↔ (k' = k ∧ w = v) ∨ (k' ≠ k ∧ own (L i) k' w)) :
    Tracks E (Function.update t k (some v)) own (Function.update L i v') := by
  have hshare : ∀ k' w, own v' k' w → Function.update t k (some v) k' = some w := by
    intro k' w hw
    rcases (hv k' w).mp hw with ⟨rfl, rfl⟩ | ⟨hne, hw⟩
    · simp
    · rw [Function.update_of_ne hne]
      exact h.covers i k' w hw
  refine h.update i (fun k' w hw => ?_) hshare (fun k' w hk' hi => ?_) fun k' w hE hk' => ?_
  · rcases (hv k' w).mp hw with ⟨rfl, rfl⟩ | ⟨-, hw⟩
    · exact hk
    · exact Or.inl ⟨w, hw⟩
  · have hne : k' ≠ k := by
      rintro rfl
      rcases hk with ⟨u, hu⟩ | hnone
      · exact hi u hu
      · simp [hnone] at hk'
    rw [Function.update_of_ne hne]
    exact hk'
  · rcases eq_or_ne k' k with rfl | hne
    · rw [Function.update_self, Option.some.injEq] at hk'
      exact Or.inl ((hv k' w).mpr (Or.inl ⟨rfl, hk'.symm⟩))
    · rw [Function.update_of_ne hne] at hk'
      obtain ⟨j, hj⟩ := h.owned k' w hE hk'
      rcases eq_or_ne j i with rfl | hji
      · exact Or.inl ((hv k' w).mpr (Or.inr ⟨hne, hj⟩))
      · exact Or.inr ⟨hk', fun u hu => hji (h.unique j i k' w u hj hu)⟩

/-- The party removes the key `k`, which is its own or in nobody's hands. -/
theorem erase (h : Tracks E t own L) (i : ι) {k : K} (hk : (∃ w, own (L i) k w) ∨ t k = none)
    (hv : ∀ k' w, own v' k' w ↔ k' ≠ k ∧ own (L i) k' w) :
    Tracks E (Function.update t k none) own (Function.update L i v') := by
  refine h.update i (fun k' w hw => Or.inl ⟨w, ((hv k' w).mp hw).2⟩) (fun k' w hw => ?_)
    (fun k' w hk' hi => ?_) fun k' w hE hk' => ?_
  · rw [Function.update_of_ne ((hv k' w).mp hw).1]
    exact h.covers i k' w ((hv k' w).mp hw).2
  · have hne : k' ≠ k := by
      rintro rfl
      rcases hk with ⟨u, hu⟩ | hnone
      · exact hi u hu
      · simp [hnone] at hk'
    rw [Function.update_of_ne hne]
    exact hk'
  · rcases eq_or_ne k' k with rfl | hne
    · simp at hk'
    · rw [Function.update_of_ne hne] at hk'
      obtain ⟨j, hj⟩ := h.owned k' w hE hk'
      rcases eq_or_ne j i with rfl | hji
      · exact Or.inl ((hv k' w).mpr ⟨hne, hj⟩)
      · exact Or.inr ⟨hk', fun u hu => hji (h.unique j i k' w u hj hu)⟩

omit [DecidableEq K] in
/-- The party removes everything it owns. -/
theorem clear (h : Tracks E t own L) (i : ι) (hv : ∀ k w, ¬ own v' k w)
    (ht : ∀ k w, t' k = some w ↔ t k = some w ∧ ∀ u, ¬ own (L i) k u) :
    Tracks E t' own (Function.update L i v') :=
  h.update i (fun k w hw => absurd hw (hv k w)) (fun k w hw => absurd hw (hv k w))
    (fun k w hk hi => (ht k w).mpr ⟨hk, hi⟩) fun k w _ hk => Or.inr ((ht k w).mp hk)

end Tracks

/-! ## Keys from a counter -/

section Bounded

variable {val : K → UInt64} {n : Nat} {t : K → Option V} {k : K} {v : V}

/-- The keys of the table come from a counter that has reached `n`. -/
def Bounded (val : K → UInt64) (n : Nat) (t : K → Option V) : Prop :=
  ∀ k v, t k = some v → (val k).toNat < n

theorem bounded_empty (ht : ∀ k, t k = none) : Bounded val n t := by
  intro k v hk
  rw [ht] at hk
  cases hk

theorem Bounded.mono {n' : Nat} (h : Bounded val n t) (hn : n ≤ n') : Bounded val n' t :=
  fun k v hk => Nat.lt_of_lt_of_le (h k v hk) hn

/-- The next value of the counter is not a key, as long as the counter has not wrapped. -/
theorem Bounded.fresh (h : Bounded val n t) (hn : n < 2 ^ 64) (hk : val k = UInt64.ofNat n) :
    t k = none := by
  rcases hv : t k with - | v
  · rfl
  · have hlt := h k v hv
    rw [hk, UInt64.toNat_ofNat_of_lt' hn] at hlt
    exact absurd hlt (Nat.lt_irrefl n)

variable [DecidableEq K]

theorem Bounded.insert (h : Bounded val n t) (hk : val k = UInt64.ofNat n) :
    Bounded val (n + 1) (Function.update t k (some v)) := by
  intro k' w hw
  by_cases hk' : k' = k
  · rw [hk', hk]
    exact Nat.lt_succ_of_le (Nat.mod_le n (2 ^ 64))
  · rw [Function.update_of_ne hk'] at hw
    exact Nat.lt_succ_of_lt (h k' w hw)

theorem Bounded.erase (h : Bounded val n t) (k : K) :
    Bounded val n (Function.update t k none) := by
  intro k' w hw
  by_cases hk' : k' = k
  · rw [hk', Function.update_self] at hw
    cases hw
  · rw [Function.update_of_ne hk'] at hw
    exact h k' w hw

end Bounded

/-! ## Finite maps as tables -/

variable [DecidableEq K]

/-- The keys of a map, as a table of units. -/
def present (s : Finmap fun _ : K => V) (k : K) : Option Unit := (s.lookup k).map fun _ => ()

theorem present_eq_some {s : Finmap fun _ : K => V} {k : K} {u : Unit} :
    present s k = some u ↔ k ∈ s := by
  rw [Finmap.mem_iff]
  simp [present]

theorem present_eq_none {s : Finmap fun _ : K => V} {k : K} : present s k = none ↔ k ∉ s := by
  simp [present, Finmap.lookup_eq_none]

/-- A key of the map after an insertion was there before, or is the one inserted. -/
theorem mem_insert_cases {s : Finmap fun _ : K => V} {k k' : K} {v : V} (h : k' ∈ s.insert k v) :
    k' ∈ s ∨ k = k' := by
  rcases Finmap.mem_insert.mp h with rfl | h
  · exact Or.inr rfl
  · exact Or.inl h

theorem lookup_insert_eq_some {s : Finmap fun _ : K => V} {k k' : K} {v w : V} :
    (s.insert k v).lookup k' = some w ↔ k' = k ∧ v = w ∨ k' ≠ k ∧ s.lookup k' = some w := by
  by_cases hk : k' = k
  · subst hk
    simp
  · simp [hk]

theorem lookup_insert_absent {s : Finmap fun _ : K => V} {k k' : K} {v w : V} (hk : k ∉ s) :
    (s.insert k v).lookup k' = some w ↔ s.lookup k' = some w ∨ k = k' ∧ v = w := by
  rw [lookup_insert_eq_some]
  constructor
  · rintro (⟨rfl, rfl⟩ | ⟨-, h⟩)
    · exact Or.inr ⟨rfl, rfl⟩
    · exact Or.inl h
  · rintro (h | ⟨rfl, rfl⟩)
    · refine Or.inr ⟨?_, h⟩
      rintro rfl
      exact hk (Finmap.mem_of_lookup_eq_some h)
    · exact Or.inl ⟨rfl, rfl⟩

theorem lookup_erase_eq_some {s : Finmap fun _ : K => V} {k k' : K} {w : V} :
    (s.erase k).lookup k' = some w ↔ k' ≠ k ∧ s.lookup k' = some w := by
  by_cases hk : k' = k
  · subst hk
    simp
  · simp [hk, Finmap.lookup_erase_ne hk]

/-- Erasing an absent key does nothing. -/
theorem erase_of_lookup_none {s : Finmap fun _ : K => V} {k : K} (hk : s.lookup k = none) :
    s.erase k = s := by
  apply Finmap.ext_lookup
  intro k'
  rcases eq_or_ne k' k with rfl | hne
  · rw [Finmap.lookup_erase, hk]
  · exact Finmap.lookup_erase_ne hne

theorem lookup_insert_eq_update (s : Finmap fun _ : K => V) (k : K) (v : V) :
    (fun k' => (s.insert k v).lookup k') = Function.update (fun k' => s.lookup k') k (some v) := by
  funext k'
  rcases eq_or_ne k' k with rfl | hne
  · simp
  · simp [hne]

theorem lookup_erase_eq_update (s : Finmap fun _ : K => V) (k : K) :
    (fun k' => (s.erase k).lookup k') = Function.update (fun k' => s.lookup k') k none := by
  funext k'
  rcases eq_or_ne k' k with rfl | hne
  · simp
  · simp [hne, Finmap.lookup_erase_ne hne]

theorem present_insert (s : Finmap fun _ : K => V) (k : K) (v : V) :
    present (s.insert k v) = Function.update (present s) k (some ()) := by
  funext k'
  rcases eq_or_ne k' k with rfl | hne
  · simp [present]
  · simp [present, hne]

theorem present_erase (s : Finmap fun _ : K => V) (k : K) :
    present (s.erase k) = Function.update (present s) k none := by
  funext k'
  rcases eq_or_ne k' k with rfl | hne
  · simp [present]
  · simp [present, hne, Finmap.lookup_erase_ne hne]

section Changes

variable {s : Finmap fun _ : K => V} {val : K → UInt64} {n : Nat} {k : K} {v : V}

theorem Bounded.lookup_insert (h : Bounded val n fun k => s.lookup k) (hk : val k = UInt64.ofNat n) :
    Bounded val (n + 1) fun k' => (s.insert k v).lookup k' := by
  rw [lookup_insert_eq_update]
  exact h.insert hk

theorem Bounded.lookup_erase (h : Bounded val n fun k => s.lookup k) (k : K) :
    Bounded val n fun k' => (s.erase k).lookup k' := by
  rw [lookup_erase_eq_update]
  exact h.erase k

theorem Bounded.present_insert (h : Bounded val n (present s)) (hk : val k = UInt64.ofNat n) :
    Bounded val (n + 1) (present (s.insert k v)) := by
  rw [Lib.present_insert]
  exact h.insert hk

theorem Bounded.present_erase (h : Bounded val n (present s)) (k : K) :
    Bounded val n (present (s.erase k)) := by
  rw [Lib.present_erase]
  exact h.erase k

variable [DecidableEq ι] {E : K → Prop} {own : ν → K → V → Prop} {L : ι → ν} {v' : ν}

theorem Tracks.lookup_insert (h : Tracks E (fun k => s.lookup k) own L) (i : ι)
    (hk : (∃ w, own (L i) k w) ∨ s.lookup k = none)
    (hv : ∀ k' w, own v' k' w ↔ (k' = k ∧ w = v) ∨ (k' ≠ k ∧ own (L i) k' w)) :
    Tracks E (fun k' => (s.insert k v).lookup k') own (Function.update L i v') := by
  rw [lookup_insert_eq_update]
  exact h.set i hk hv

theorem Tracks.lookup_erase (h : Tracks E (fun k => s.lookup k) own L) (i : ι)
    (hk : (∃ w, own (L i) k w) ∨ s.lookup k = none)
    (hv : ∀ k' w, own v' k' w ↔ k' ≠ k ∧ own (L i) k' w) :
    Tracks E (fun k' => (s.erase k).lookup k') own (Function.update L i v') := by
  rw [lookup_erase_eq_update]
  exact h.erase i hk hv

end Changes

/-- `HashMap::retain`, by value. -/
def retain (p : V → Prop) [DecidablePred p] (s : Finmap fun _ : K => V) : Finmap fun _ : K => V where
  entries := s.entries.filter fun e => p e.2
  nodupKeys := Multiset.nodup_keys.mp (Multiset.nodup_of_le
    (Multiset.map_le_map (Multiset.filter_le _ _)) (Multiset.nodup_keys.mpr s.nodupKeys))

theorem mem_entries_iff {s : Finmap fun _ : K => V} {k : K} {v : V} :
    ⟨k, v⟩ ∈ s.entries ↔ s.lookup k = some v := by
  induction s using Finmap.induction_on with
  | H a => exact AList.mem_lookup_iff.symm

theorem lookup_retain (p : V → Prop) [DecidablePred p] (s : Finmap fun _ : K => V) (k : K) :
    (retain p s).lookup k = (s.lookup k).filter p := by
  ext v
  rw [← mem_entries_iff, Option.filter_eq_some_iff, ← mem_entries_iff]
  simp [retain]

theorem lookup_retain_eq_some {p : V → Prop} [DecidablePred p] {s : Finmap fun _ : K => V} {k : K}
    {v : V} : (retain p s).lookup k = some v ↔ s.lookup k = some v ∧ p v := by
  rw [lookup_retain, Option.filter_eq_some_iff, decide_eq_true_iff]

theorem mem_of_mem_retain {p : V → Prop} [DecidablePred p] {s : Finmap fun _ : K => V} {k : K}
    (h : k ∈ retain p s) : k ∈ s := by
  obtain ⟨v, hv⟩ := Finmap.mem_iff.mp h
  exact Finmap.mem_of_lookup_eq_some (lookup_retain_eq_some.mp hv).1

end Vmb.Lib

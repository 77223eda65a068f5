/-
# Vmb.Lib.Fresh -- threads that file things under numbers from one counter

Threads of a pool draw numbers from a shared counter and later file things in the shared state under
keys made of the numbers they have drawn. `Register.discipline` is the contract of such a thread: a key is
filed under the number drawn last, once. As long as the counter does not reach its limit, no number
is drawn twice, so no two keys ever filed have the same number, a key is filed only where there is
none, and a key that has been removed never comes back (`KeysFresh`), in every interleaving.
-/
import Mathlib.Data.List.Nodup
import Vmb.Lib.Pool

namespace Vmb.Lib

variable {S : Signature} {σ ι A X R K : Type}

/-! ## Machines with a counter -/

/-- What a call has to do with the counter and the keys. -/
inductive Filing (K : Type) where
  | draw
  | file (k : K)
  | other
  deriving DecidableEq

/-- How the calls and states of a machine are read: the number in the answer to a draw, the counter
and the keys present. -/
structure Register (S : Signature) (σ K : Type) where
  kind : S.Call → Filing K
  drawn : (c : S.Call) → S.Resp c → Nat
  num : K → Nat
  counter : σ → Nat
  Present : σ → K → Prop

namespace Register

/-- The machine draws numbers from the counter, below the limit, and files nothing but what it is
told to. -/
structure Obeys (D : Register S σ K) (m : Machine S σ) (limit : Nat) : Prop where
  draw : ∀ s c, D.kind c = .draw → D.counter (m s c).2 = D.counter s + 1
  drawn : ∀ s c, D.kind c = .draw → D.counter s < limit → D.drawn c (m s c).1 = D.counter s
  keep : ∀ s c, D.kind c ≠ .draw → D.counter (m s c).2 = D.counter s
  present : ∀ s c k, D.Present (m s c).2 k → D.Present s k ∨ D.kind c = .file k

/-- The keys a thread has filed, and the number it has drawn for the next one. -/
structure View (K : Type) where
  filed : List K := []
  held : Option Nat := none

/-- Nothing more is filed. -/
theorem View.quiet (v : View K) : v.filed = v.filed ++ [] := (List.append_nil _).symm

/-- A key is filed under the number drawn last. -/
def discipline (D : Register S σ K) : Contract S (View K) where
  pre v c := ∀ k, D.kind c = .file k → v.held = some (D.num k)
  next v c r :=
    match D.kind c with
    | .draw => { v with held := some (D.drawn c r) }
    | .file k => ⟨v.filed ++ [k], none⟩
    | .other => v

/-- The draws of a log, with the thread of each. -/
def draws (D : Register S σ K) (log : List (ι × Event S)) : List (ι × Nat) :=
  log.filterMap fun e =>
    match D.kind e.2.call with
    | .draw => some (e.1, D.drawn e.2.call e.2.resp)
    | _ => none

/-- The numbers of a view: of the keys filed, and the one that is held. -/
def View.nums (D : Register S σ K) (v : View K) : List Nat := v.filed.map D.num ++ v.held.toList

end Register

/-! ## Disciplined programs -/

section Meets

variable {D : Register S σ K} {α : Type} {Q : α → Register.View K → Prop} {v : Register.View K}
  {c : S.Call} {f : S.Resp c → Prog S α}

/-- A draw: the number is held from here on. -/
theorem meets_draw (hkind : D.kind c = .draw)
    (h : ∀ r, (f r).Meets D.discipline Q { v with held := some (D.drawn c r) }) :
    (Prog.call c f).Meets D.discipline Q v := by
  refine ⟨fun k hk => ?_, fun r => ?_⟩
  · rw [hkind] at hk
    cases hk
  · have hnext : D.discipline.next v c r = { v with held := some (D.drawn c r) } := by
      simp only [Register.discipline, hkind]
    rw [hnext]
    exact h r

/-- A key is filed under the number that is held. -/
theorem meets_file {k : K} (hkind : D.kind c = .file k) (hheld : v.held = some (D.num k))
    (h : ∀ r, (f r).Meets D.discipline Q ⟨v.filed ++ [k], none⟩) :
    (Prog.call c f).Meets D.discipline Q v := by
  refine ⟨fun k' hk => ?_, fun r => ?_⟩
  · rw [hkind] at hk
    cases hk
    exact hheld
  · have hnext : D.discipline.next v c r = ⟨v.filed ++ [k], none⟩ := by
      simp only [Register.discipline, hkind]
    rw [hnext]
    exact h r

/-- Any other call. -/
theorem meets_other (hkind : D.kind c = .other) (h : ∀ r, (f r).Meets D.discipline Q v) :
    (Prog.call c f).Meets D.discipline Q v := by
  refine ⟨fun k hk => ?_, fun r => ?_⟩
  · rw [hkind] at hk
    cases hk
  · have hnext : D.discipline.next v c r = v := by
      simp only [Register.discipline, hkind]
    rw [hnext]
    exact h r

end Meets

/-! ## What a pool keeps -/

section Fresh

variable [DecidableEq ι] {D : Register S σ K} {m : Machine S σ} {perform : A → X → Prog S (R × X)}
  {P : Pool S σ ι X R} {limit first : Nat}

open Register

/-- What a thread has filed and holds. -/
def Pool.holding (D : Register S σ K) (P : Pool S σ ι X R) (t : ι) : View K :=
  Pool.view D.discipline {} P.log t

/-- No number has been drawn twice, every thread has used its own draws in order, and what is present
has been filed by a thread. -/
structure Drawn (D : Register S σ K) (first : Nat) (P : Pool S σ ι X R) : Prop where
  nodup : ((D.draws P.log).map Prod.snd).Nodup
  range : ∀ x ∈ D.draws P.log, first ≤ x.2 ∧ x.2 < D.counter P.shared
  counter : first ≤ D.counter P.shared
  own : ∀ t, ((P.holding D t).nums D).Sublist (((D.draws P.log).filter (·.1 = t)).map Prod.snd)
  present : ∀ k, D.Present P.shared k → ∃ t, k ∈ (P.holding D t).filed

/-- A number a thread has used or holds was drawn by it. -/
theorem Drawn.mem_draws (h : Drawn D first P) {t : ι} {n : Nat} (hn : n ∈ (P.holding D t).nums D) :
    (t, n) ∈ D.draws P.log := by
  obtain ⟨⟨u, n'⟩, hx, rfl⟩ := List.mem_map.mp ((h.own t).subset hn)
  obtain ⟨hx, hu⟩ := List.mem_filter.mp hx
  have hu : u = t := of_decide_eq_true hu
  exact hu ▸ hx

/-- Two threads have no number in common. -/
theorem Drawn.thread_eq (h : Drawn D first P) {t u : ι} {n : Nat}
    (ht : n ∈ (P.holding D t).nums D) (hu : n ∈ (P.holding D u).nums D) : t = u :=
  congrArg Prod.fst (List.inj_on_of_nodup_map h.nodup (h.mem_draws ht) (h.mem_draws hu) rfl)

theorem Drawn.nodup_nums (h : Drawn D first P) (t : ι) : ((P.holding D t).nums D).Nodup :=
  (h.own t).nodup (h.nodup.sublist (List.Sublist.map _ List.filter_sublist))

theorem View.mem_nums_filed {v : View K} {k : K} (hk : k ∈ v.filed) : D.num k ∈ v.nums D :=
  List.mem_append_left _ (List.mem_map_of_mem hk)

/-- **A number that is held has not been used by anyone.** -/
theorem Drawn.not_filed (h : Drawn D first P) {t u : ι} {k : K}
    (ht : (P.holding D t).held = some (D.num k)) : k ∉ (P.holding D u).filed := by
  intro hk
  have hheld : D.num k ∈ (P.holding D t).nums D := by
    rw [View.nums, ht]
    exact List.mem_append_right _ (List.mem_singleton_self _)
  obtain rfl := h.thread_eq hheld (View.mem_nums_filed hk)
  have hnodup := h.nodup_nums t
  rw [View.nums, ht] at hnodup
  exact (List.nodup_append.mp hnodup).2.2 _ (List.mem_map_of_mem hk) _ (List.mem_singleton_self _) rfl

theorem Drawn.init {s : σ} {x : X} (hpresent : ∀ k, ¬ D.Present s k) :
    Drawn D (D.counter s) (Pool.init s x : Pool S σ ι X R) where
  nodup := List.nodup_nil
  range _ hx := absurd hx List.not_mem_nil
  counter := Nat.le_refl _
  own _ := List.Sublist.refl _
  present k hk := absurd hk (hpresent k)

omit [DecidableEq ι] in
/-- The log after a call. -/
theorem draws_append (log : List (ι × Event S)) (t : ι) (e : Event S) :
    D.draws (log ++ [(t, e)]) = D.draws log ++
      match D.kind e.call with
      | .draw => [(t, D.drawn e.call e.resp)]
      | _ => [] := by
  rw [draws, List.filterMap_append]
  refine congrArg _ ?_
  rcases hkind : D.kind e.call with - | k | - <;> simp [hkind]

variable {P' : Pool S σ ι X R} {t : ι} {c : S.Call}

/-- What the threads hold after a call. -/
theorem holding_append {r : S.Resp c} (hlog : P'.log = P.log ++ [(t, ⟨c, r⟩)]) :
    P'.holding D = Function.update (P.holding D) t (D.discipline.next (P.holding D t) c r) := by
  unfold Pool.holding
  rw [hlog]
  exact Pool.view_append D.discipline {} P.log t ⟨c, r⟩

omit [DecidableEq ι] in
theorem filed_grows_next (v : View K) (c : S.Call) (r : S.Resp c) :
    v.filed <+: (D.discipline.next v c r).filed := by
  simp only [discipline]
  split
  · exact List.prefix_refl _
  · exact List.prefix_append _ _
  · exact List.prefix_refl _

/-- A thread files, and takes nothing out of its list. -/
theorem filed_grows {r : S.Resp c} (hlog : P'.log = P.log ++ [(t, ⟨c, r⟩)]) (u : ι) :
    (P.holding D u).filed <+: (P'.holding D u).filed := by
  rw [holding_append hlog]
  rcases eq_or_ne u t with rfl | hne
  · rw [Function.update_self]
    exact filed_grows_next _ _ _
  · rw [Function.update_of_ne hne]

/-- What a thread files is in its list. -/
theorem mem_filed {r : S.Resp c} {k : K} (hkind : D.kind c = .file k)
    (hlog : P'.log = P.log ++ [(t, ⟨c, r⟩)]) : k ∈ (P'.holding D t).filed := by
  rw [holding_append hlog, Function.update_self]
  simp only [discipline, hkind]
  exact List.mem_append_right _ (List.mem_singleton_self k)

/-- A pool with the same log and counter, in which no key has appeared. -/
theorem Drawn.congr (h : Drawn D first P) (hcounter : D.counter P'.shared = D.counter P.shared)
    (hpresent : ∀ k, D.Present P'.shared k → D.Present P.shared k) (hlog : P'.log = P.log) :
    Drawn D first P' := by
  have hholding : P'.holding D = P.holding D := by
    unfold Pool.holding
    rw [hlog]
  exact ⟨hlog ▸ h.nodup, hlog ▸ hcounter ▸ h.range, hcounter ▸ h.counter, hholding ▸ hlog ▸ h.own,
    fun k hk => hholding ▸ h.present k (hpresent k hk)⟩

/-- A number is drawn: it is larger than all before it. -/
theorem Drawn.draw (h : Drawn D first P) (hobeys : D.Obeys m limit) (hkind : D.kind c = .draw)
    (hlimit : D.counter (m P.shared c).2 ≤ limit) (hshared : P'.shared = (m P.shared c).2)
    (hlog : P'.log = P.log ++ [(t, ⟨c, (m P.shared c).1⟩)]) : Drawn D first P' := by
  have hcounter := hobeys.draw P.shared c hkind
  have hdrawn := hobeys.drawn P.shared c hkind (by omega)
  have hdraws : D.draws P'.log = D.draws P.log ++ [(t, D.counter P.shared)] := by
    rw [hlog, draws_append]
    simp only [hkind, hdrawn]
  have hholding : P'.holding D = Function.update (P.holding D) t
      { P.holding D t with held := some (D.counter P.shared) } := by
    rw [holding_append hlog]
    simp only [discipline, hkind, hdrawn]
  rw [← hshared] at hcounter
  refine ⟨?_, fun x hx => ?_, ?_, fun u => ?_, fun k hk => ?_⟩
  · rw [hdraws, List.map_append]
    refine List.nodup_append.mpr ⟨h.nodup, List.nodup_singleton _, fun n hn n' hn' => ?_⟩
    obtain ⟨x, hx, rfl⟩ := List.mem_map.mp hn
    rw [List.mem_singleton.mp hn']
    exact Nat.ne_of_lt (h.range x hx).2
  · rw [hdraws] at hx
    have hle := h.counter
    rcases List.mem_append.mp hx with hx | hx
    · have hrange := h.range x hx
      omega
    · rw [List.mem_singleton.mp hx]
      show first ≤ D.counter P.shared ∧ D.counter P.shared < D.counter P'.shared
      omega
  · have hle := h.counter
    omega
  · rw [hdraws, hholding, List.filter_append, List.map_append]
    rcases eq_or_ne u t with rfl | hne
    · rw [Function.update_self]
      have hfiled := (List.sublist_append_left _ _).trans (h.own u)
      have hlast : ([(u, D.counter P.shared)].filter (·.1 = u)).map Prod.snd =
          [D.counter P.shared] := by simp
      rw [hlast]
      exact hfiled.append (List.Sublist.refl _)
    · rw [Function.update_of_ne hne]
      simpa [Ne.symm hne] using h.own u
  · rw [hshared] at hk
    rcases hobeys.present P.shared c k hk with hk | hfile
    · obtain ⟨u, hu⟩ := h.present k hk
      exact ⟨u, (filed_grows hlog u).subset hu⟩
    · rw [hkind] at hfile
      cases hfile

/-- A key is filed under the number that was held. -/
theorem Drawn.file (h : Drawn D first P) (hobeys : D.Obeys m limit) {k : K}
    (hkind : D.kind c = .file k) (hpre : (P.holding D t).held = some (D.num k))
    (hshared : P'.shared = (m P.shared c).2)
    (hlog : P'.log = P.log ++ [(t, ⟨c, (m P.shared c).1⟩)]) : Drawn D first P' := by
  have hcounter : D.counter P'.shared = D.counter P.shared := by
    rw [hshared, hobeys.keep P.shared c (by simp [hkind])]
  have hdraws : D.draws P'.log = D.draws P.log := by
    rw [hlog, draws_append]
    simp only [hkind, List.append_nil]
  have hholding : P'.holding D = Function.update (P.holding D) t
      ⟨(P.holding D t).filed ++ [k], none⟩ := by
    rw [holding_append hlog]
    simp only [discipline, hkind]
  refine ⟨hdraws ▸ h.nodup, hdraws ▸ hcounter ▸ h.range, hcounter ▸ h.counter, fun u => ?_,
    fun k' hk => ?_⟩
  · rw [hdraws, hholding]
    rcases eq_or_ne u t with rfl | hne
    · have hown := h.own u
      rw [View.nums, hpre] at hown
      rw [Function.update_self]
      simpa [View.nums] using hown
    · rw [Function.update_of_ne hne]
      exact h.own u
  · rw [hshared] at hk
    rcases hobeys.present P.shared c k' hk with hk | hfile
    · obtain ⟨u, hu⟩ := h.present k' hk
      exact ⟨u, (filed_grows hlog u).subset hu⟩
    · rw [hkind] at hfile
      cases hfile
      refine ⟨t, ?_⟩
      rw [hholding, Function.update_self]
      exact List.mem_append_right _ (List.mem_singleton_self _)

/-- The other calls change nothing of it. -/
theorem Drawn.other (h : Drawn D first P) (hobeys : D.Obeys m limit) (hkind : D.kind c = .other)
    (hshared : P'.shared = (m P.shared c).2)
    (hlog : P'.log = P.log ++ [(t, ⟨c, (m P.shared c).1⟩)]) : Drawn D first P' := by
  have hcounter : D.counter P'.shared = D.counter P.shared := by
    rw [hshared, hobeys.keep P.shared c (by simp [hkind])]
  have hdraws : D.draws P'.log = D.draws P.log := by
    rw [hlog, draws_append]
    simp only [hkind, List.append_nil]
  have hholding : P'.holding D = P.holding D := by
    rw [holding_append hlog]
    simp only [discipline, hkind, Function.update_eq_self]
  refine ⟨hdraws ▸ h.nodup, hdraws ▸ hcounter ▸ h.range, hcounter ▸ h.counter,
    hholding ▸ hdraws ▸ h.own, fun k hk => ?_⟩
  rw [hshared] at hk
  rw [hholding]
  rcases hobeys.present P.shared c k hk with hk | hfile
  · exact h.present k hk
  · rw [hkind] at hfile
    cases hfile

/-- **A call of a thread that keeps the discipline.** -/
theorem Drawn.call (h : Drawn D first P) (hobeys : D.Obeys m limit)
    (hpre : D.discipline.pre (P.holding D t) c) (hlimit : D.counter (m P.shared c).2 ≤ limit)
    (hshared : P'.shared = (m P.shared c).2)
    (hlog : P'.log = P.log ++ [(t, ⟨c, (m P.shared c).1⟩)]) : Drawn D first P' := by
  rcases hkind : D.kind c with - | k | -
  · exact h.draw hobeys hkind hlimit hshared hlog
  · exact h.file hobeys hkind (hpre k hkind) hshared hlog
  · exact h.other hobeys hkind hshared hlog

end Fresh

/-! ## Every interleaving -/

/-- The keys issued along a schedule have numbers of their own; a key that is present has a number the
counter has passed, is not filed again, and does not come back once it has been removed. -/
structure KeysFresh (D : Register S σ K) (run : List (Move ι A) → Pool S σ ι (List K) R)
    (moves : List (Move ι A)) : Prop where
  positive : ∀ t, ∀ k ∈ ((run moves).threads t).object, D.num k ≠ 0
  nodup : ∀ t, (((run moves).threads t).object.map D.num).Nodup
  apart : ∀ t u, t ≠ u → ∀ k ∈ ((run moves).threads t).object,
    ∀ k' ∈ ((run moves).threads u).object, D.num k ≠ D.num k'
  below : ∀ before, before <+: moves → ∀ k, D.Present (run before).shared k →
    D.num k < D.counter (run before).shared
  absent : ∀ before t, before ++ [.step t] <+: moves → ∀ c k, (run before).Calls t c →
    D.kind c = .file k → ¬ D.Present (run before).shared k
  retired : ∀ before between after, before ++ between ++ after <+: moves → ∀ k,
    D.Present (run before).shared k → ¬ D.Present (run (before ++ between)).shared k →
      ¬ D.Present (run (before ++ between ++ after)).shared k

section Schedules

variable [DecidableEq ι] {D : Register S σ K} {m : Machine S σ} {perform : A → X → Prog S (R × X)}
  {P : Pool S σ ι X R} {limit first : Nat}

open Register

/-- The counter of the shared state only grows. -/
theorem Register.Obeys.counter_le_move (hobeys : D.Obeys m limit) (P : Pool S σ ι X R)
    (mv : Move ι A) : D.counter P.shared ≤ D.counter (P.move m perform mv).shared := by
  rcases Pool.move_cases m perform P mv with ⟨hshared, -⟩ | ⟨t, c, -, -, hshared, -⟩
  · rw [hshared]
  · rw [hshared]
    by_cases hkind : D.kind c = .draw
    · rw [hobeys.draw _ _ hkind]
      exact Nat.le_succ _
    · rw [hobeys.keep _ _ hkind]

theorem Register.Obeys.counter_le_run (hobeys : D.Obeys m limit) (P : Pool S σ ι X R)
    (moves : List (Move ι A)) : D.counter P.shared ≤ D.counter (P.run m perform moves).shared := by
  induction moves generalizing P with
  | nil => exact Nat.le_refl _
  | cons mv moves ih => exact Nat.le_trans (hobeys.counter_le_move P mv) (ih (P.move m perform mv))

/-- The counter counts the draws. -/
theorem Register.Obeys.counter_move (hobeys : D.Obeys m limit) (P : Pool S σ ι X R)
    (mv : Move ι A) (h : D.counter P.shared = first + (D.draws P.log).length) :
    D.counter (P.move m perform mv).shared = first + (D.draws (P.move m perform mv).log).length := by
  rcases Pool.move_cases m perform P mv with ⟨hshared, hlog⟩ | ⟨t, c, -, -, hshared, hlog⟩
  · rw [hshared, hlog]
    exact h
  · rw [hshared, hlog, draws_append]
    rcases hkind : D.kind c with - | k | -
    · simp only [hobeys.draw _ _ hkind, List.length_append, List.length_singleton]
      omega
    · simpa only [hkind, hobeys.keep P.shared c (by simp [hkind]), List.append_nil] using h
    · simpa only [hkind, hobeys.keep P.shared c (by simp [hkind]), List.append_nil] using h

theorem Register.Obeys.counter_run (hobeys : D.Obeys m limit) (P : Pool S σ ι X R)
    (moves : List (Move ι A)) (h : D.counter P.shared = first + (D.draws P.log).length) :
    D.counter (P.run m perform moves).shared =
      first + (D.draws (P.run m perform moves).log).length := by
  induction moves generalizing P with
  | nil => exact h
  | cons mv moves ih => exact ih (P.move m perform mv) (hobeys.counter_move P mv h)

/-- What a pool of disciplined threads keeps, whatever objects they own. -/
structure Numbered (D : Register S σ K) (first : Nat) (P : Pool S σ ι X R) : Prop where
  sound : P.Sound D.discipline {} (fun _ _ => True) (fun _ _ => True) fun _ => True
  drawn : Drawn D first P

theorem Numbered.init {s : σ} {x : X} (hpresent : ∀ k, ¬ D.Present s k) :
    Numbered D (D.counter s) (Pool.init s x : Pool S σ ι X R) where
  sound := Pool.sound_init trivial
  drawn := Drawn.init hpresent

theorem Numbered.move (h : Numbered D first P) (hobeys : D.Obeys m limit)
    (hperform : ∀ a x v, (perform a x).Meets D.discipline (fun _ _ => True) v) (mv : Move ι A)
    (hlimit : D.counter (P.move m perform mv).shared ≤ limit) :
    Numbered D first (P.move m perform mv) := by
  refine ⟨h.sound.move mv (fun t a x v _ _ => ?_) fun _ _ _ _ => trivial, ?_⟩
  · exact ((hperform a x v).mono fun _ _ _ => ⟨trivial, trivial⟩).ensures
  · rcases Pool.move_cases m perform P mv with ⟨hshared, hlog⟩ | ⟨t, c, -, hcalls, hshared, hlog⟩
    · exact h.drawn.congr (by rw [hshared]) (fun _ => by rw [hshared]; exact id) hlog
    · rw [hshared] at hlimit
      exact h.drawn.call hobeys (h.sound.pre hcalls) hlimit hshared hlog

/-- Others change the shared state, and neither the counter nor the keys. -/
theorem Numbered.share (h : Numbered D first P) {s : σ} (hcounter : D.counter s = D.counter P.shared)
    (hpresent : ∀ k, D.Present s k → D.Present P.shared k) : Numbered D first { P with shared := s } where
  sound := ⟨h.sound.resting, h.sound.running, h.sound.results⟩
  drawn := h.drawn.congr hcounter hpresent rfl

/-- **A key is filed under a number no thread has used.** -/
theorem Numbered.unfiled (h : Numbered D first P) {t : ι} {c : S.Call} {k : K} (hcalls : P.Calls t c)
    (hkind : D.kind c = .file k) (u : ι) : k ∉ (P.holding D u).filed :=
  h.drawn.not_filed (h.sound.pre hcalls k hkind)

theorem Numbered.absent (h : Numbered D first P) {t : ι} {c : S.Call} {k : K} (hcalls : P.Calls t c)
    (hkind : D.kind c = .file k) : ¬ D.Present P.shared k := by
  intro hpresent
  obtain ⟨u, hu⟩ := h.drawn.present k hpresent
  exact h.unfiled hcalls hkind u hu

end Schedules

section Runs

variable [DecidableEq ι] {D : Register S σ K} {m : Machine S σ}
  {perform : A → List K → Prog S (R × List K)} {P : Pool S σ ι (List K) R} {limit first : Nat}

open Register

/-- What a pool of disciplined threads keeps. A thread at rest has been issued the keys it has filed;
inside an operation it may have filed more. -/
structure Kept (D : Register S σ K) (first : Nat) (P : Pool S σ ι (List K) R) : Prop where
  sound : P.Sound D.discipline {} (fun _ _ => True) (fun ids v => v.filed = ids) fun _ => True
  drawn : Drawn D first P
  issued : ∀ t, (P.threads t).object <+: (P.holding D t).filed

theorem Kept.init {s : σ} (hpresent : ∀ k, ¬ D.Present s k) :
    Kept D (D.counter s) (Pool.init s [] : Pool S σ ι (List K) R) where
  sound := Pool.sound_init rfl
  drawn := Drawn.init hpresent
  issued _ := List.nil_prefix

theorem Pool.holding_move (P : Pool S σ ι (List K) R) (mv : Move ι A) (t : ι) :
    (P.holding D t).filed <+: ((P.move m perform mv).holding D t).filed := by
  rcases Pool.move_cases m perform P mv with ⟨-, hlog⟩ | ⟨u, c, -, -, -, hlog⟩
  · unfold Pool.holding
    rw [hlog]
  · exact filed_grows hlog t

theorem Pool.holding_run (P : Pool S σ ι (List K) R) (moves : List (Move ι A)) (t : ι) :
    (P.holding D t).filed <+: ((P.run m perform moves).holding D t).filed := by
  induction moves generalizing P with
  | nil => exact List.prefix_refl _
  | cons mv moves ih => exact (P.holding_move mv t).trans (ih (P.move m perform mv))

/-- A thread keeps its object until its operation ends. -/
theorem Pool.object_move (P : Pool S σ ι X R) (perform : A → X → Prog S (R × X)) (mv : Move ι A)
    (t : ι) : ((P.move m perform mv).threads t).object = (P.threads t).object ∨
      ((P.move m perform mv).threads t).running = none := by
  have hupdate : ∀ u thread, thread.object = (P.threads u).object ∨ thread.running = none →
      (Function.update P.threads u thread t).object = (P.threads t).object ∨
        (Function.update P.threads u thread t).running = none := by
    intro u thread h
    rcases eq_or_ne t u with rfl | hne
    · rw [Function.update_self]
      exact h
    · rw [Function.update_of_ne hne]
      exact Or.inl rfl
  cases mv with
  | invoke u a =>
      simp only [Pool.move]
      split
      · exact Or.inl rfl
      · exact hupdate u _ (Or.inl rfl)
  | step u =>
      simp only [Pool.move]
      split
      · exact Or.inl rfl
      · exact hupdate u _ (Or.inr rfl)
      · exact hupdate u _ (Or.inl rfl)

/-- **A move keeps it**, if every operation keeps the discipline and issues what it files. -/
theorem Kept.move (h : Kept D first P) (hobeys : D.Obeys m limit)
    (hperform : ∀ a ids v, v.filed = ids →
      (perform a ids).Meets D.discipline (fun r v' => v'.filed = r.2) v) (mv : Move ι A)
    (hlimit : D.counter (P.move m perform mv).shared ≤ limit) :
    Kept D first (P.move m perform mv) := by
  have hsound : (P.move m perform mv).Sound D.discipline {} (fun _ _ => True)
      (fun ids v => v.filed = ids) fun _ => True :=
    h.sound.move mv
      (fun t a ids v _ hv => ((hperform a ids v hv).mono fun r v' hr => ⟨hr, trivial⟩).ensures)
      fun _ _ _ _ => trivial
  refine ⟨hsound, ?_, fun t => ?_⟩
  · rcases Pool.move_cases m perform P mv with ⟨hshared, hlog⟩ | ⟨t, c, -, hcalls, hshared, hlog⟩
    · exact h.drawn.congr (by rw [hshared]) (fun _ => by rw [hshared]; exact id) hlog
    · rw [hshared] at hlimit
      exact h.drawn.call hobeys (h.sound.pre hcalls) hlimit hshared hlog
  · rcases Pool.object_move P perform mv t with hobject | hnone
    · rw [hobject]
      exact (h.issued t).trans (Pool.holding_move P mv t)
    · have hrest : (Pool.view D.discipline {} (P.move m perform mv).log t).filed = _ :=
        hsound.resting t hnone
      exact hrest ▸ List.prefix_refl _

/-- A schedule keeps it. -/
theorem Kept.run (h : Kept D first P) (hobeys : D.Obeys m limit)
    (hperform : ∀ a ids v, v.filed = ids →
      (perform a ids).Meets D.discipline (fun r v' => v'.filed = r.2) v) (moves : List (Move ι A))
    (hlimit : D.counter (P.run m perform moves).shared ≤ limit) :
    Kept D first (P.run m perform moves) := by
  induction moves generalizing P with
  | nil => exact h
  | cons mv moves ih =>
      have hnext : D.counter (P.move m perform mv).shared ≤ limit :=
        Nat.le_trans (hobeys.counter_le_run (P.move m perform mv) moves) hlimit
      exact ih (h.move hobeys hperform mv hnext) hlimit

/-- **A key is filed only where it is not present.** -/
theorem Kept.absent (h : Kept D first P) {t : ι} {c : S.Call} {k : K} (hcalls : P.Calls t c)
    (hkind : D.kind c = .file k) : ¬ D.Present P.shared k := by
  intro hpresent
  obtain ⟨u, hu⟩ := h.drawn.present k hpresent
  exact h.drawn.not_filed (h.sound.pre hcalls k hkind) hu

/-- **A key that has been filed and removed stays away.** -/
theorem Kept.retired (h : Kept D first P) (hobeys : D.Obeys m limit)
    (hperform : ∀ a ids v, v.filed = ids →
      (perform a ids).Meets D.discipline (fun r v' => v'.filed = r.2) v) {t : ι} {k : K}
    (hfiled : k ∈ (P.holding D t).filed) (hgone : ¬ D.Present P.shared k) (moves : List (Move ι A))
    (hlimit : D.counter (P.run m perform moves).shared ≤ limit) :
    ¬ D.Present (P.run m perform moves).shared k := by
  induction moves generalizing P with
  | nil => exact hgone
  | cons mv moves ih =>
      have hnext : D.counter (P.move m perform mv).shared ≤ limit :=
        Nat.le_trans (hobeys.counter_le_run (P.move m perform mv) moves) hlimit
      refine ih (h.move hobeys hperform mv hnext) ((Pool.holding_move P mv t).subset hfiled) ?_ hlimit
      rcases Pool.move_cases m perform P mv with ⟨hshared, -⟩ | ⟨u, c, -, hcalls, hshared, -⟩
      · rw [hshared]
        exact hgone
      · rw [hshared]
        intro hpresent
        rcases hobeys.present P.shared c k hpresent with hold | hfile
        · exact hgone hold
        · exact h.drawn.not_filed (h.sound.pre hcalls k hfile) hfiled

/-- The number of a key that has been issued was drawn by its thread. -/
theorem Kept.mem_nums (h : Kept D first P) {t : ι} {k : K} (hk : k ∈ (P.threads t).object) :
    D.num k ∈ (P.holding D t).nums D :=
  View.mem_nums_filed ((h.issued t).subset hk)

/-- **In every interleaving the keys are fresh**, as long as the counter does not pass its limit. -/
theorem keysFresh (hobeys : D.Obeys m limit)
    (hperform : ∀ a ids v, v.filed = ids →
      (perform a ids).Meets D.discipline (fun r v' => v'.filed = r.2) v) {s : σ}
    (hcounter : 0 < D.counter s) (hpresent : ∀ k, ¬ D.Present s k) (moves : List (Move ι A))
    (hlimit : D.counter s +
      (D.draws ((Pool.init s [] : Pool S σ ι (List K) R).run m perform moves).log).length ≤ limit) :
    KeysFresh D ((Pool.init s [] : Pool S σ ι (List K) R).run m perform) moves := by
  have hsplit : ∀ (P : Pool S σ ι (List K) R) (before after : List (Move ι A)),
      P.run m perform (before ++ after) = (P.run m perform before).run m perform after :=
    fun P before after => List.foldl_append ..
  rw [← hobeys.counter_run _ moves rfl] at hlimit
  have hbound : ∀ before, before <+: moves →
      D.counter ((Pool.init s [] : Pool S σ ι (List K) R).run m perform before).shared ≤ limit := by
    rintro before ⟨after, rfl⟩
    rw [hsplit] at hlimit
    exact Nat.le_trans (hobeys.counter_le_run _ _) hlimit
  have hkept : ∀ before, before <+: moves →
      Kept D (D.counter s) ((Pool.init s [] : Pool S σ ι (List K) R).run m perform before) :=
    fun before hbefore => (Kept.init hpresent).run hobeys hperform before (hbound before hbefore)
  have hend := hkept moves (List.prefix_refl _)
  refine ⟨fun t k hk => ?_, fun t => ?_, fun t u hne k hk k' hk' heq => ?_,
    fun before hbefore k hk => ?_, fun before t hbefore c k hcalls hkind => ?_,
    fun before between after hmoves k hk hgone => ?_⟩
  · have hrange := hend.drawn.range _ (hend.drawn.mem_draws (hend.mem_nums hk))
    simp only at hrange
    omega
  · have hnodup := (List.sublist_append_left _ _).nodup (hend.drawn.nodup_nums t)
    exact ((hend.issued t).sublist.map _).nodup hnodup
  · exact hne (hend.drawn.thread_eq (hend.mem_nums hk) (heq ▸ hend.mem_nums hk'))
  · have hdrawn := (hkept before hbefore).drawn
    obtain ⟨t, ht⟩ := hdrawn.present k hk
    exact (hdrawn.range _ (hdrawn.mem_draws (View.mem_nums_filed ht))).2
  · exact (hkept before ((List.prefix_append _ _).trans hbefore)).absent hcalls hkind
  · have hbetween := (List.prefix_append (before ++ between) after).trans hmoves
    obtain ⟨t, ht⟩ := (hkept before ((List.prefix_append _ _).trans hbetween)).drawn.present k hk
    have hlater := hbound _ hmoves
    rw [hsplit] at hlater ⊢
    refine (hkept _ hbetween).retired hobeys hperform (t := t) ?_ hgone after hlater
    rw [hsplit]
    exact (Pool.holding_run _ between t).subset ht

end Runs

end Vmb.Lib

/-
# Vmb.Lib.Prog -- programs over a signature of calls, and the machines that answer them

A `Signature` lists the calls a piece of code may issue and the type of answer each call gets. A
`Prog` is a finished value or one call followed by what the code does with the answer, so a program
fixes the calls and their order and says nothing about who answers them. A `Machine` answers calls
from a state; `Prog.run` plays a program against one. The same program can therefore be run against
several implementations of one interface, and against an adversary that answers anything.

`Prog.Runs` is the machine-free reading: the traces of calls and answers a program can produce. It
is the inversion principle for programs (`runs_call`, `runs_bind`), and `run_logged_runs` says every
machine produces one of these traces.

Nothing here mentions a particular interface.
-/
import Mathlib.Logic.Function.Basic

namespace Vmb.Lib

/-- The calls a program may issue, and the type of answer each of them gets. -/
structure Signature where
  Call : Type
  Resp : Call → Type

/-- A program over `S`: a result, or a call and a continuation on its answer. -/
inductive Prog (S : Signature) (α : Type) : Type where
  | done (a : α) : Prog S α
  | call (c : S.Call) (k : S.Resp c → Prog S α) : Prog S α

variable {S : Signature} {α β γ σ : Type}

namespace Prog

/-! ## The monad of programs -/

/-- Run `p`, then `f` on its result. -/
def bind : Prog S α → (α → Prog S β) → Prog S β
  | .done a, f => f a
  | .call c k, f => .call c fun r => (k r).bind f

/-- The program that issues one call and returns its answer. -/
def perform (c : S.Call) : Prog S (S.Resp c) := .call c .done

instance : Monad (Prog S) where
  pure := .done
  bind := bind

@[simp] theorem pure_eq_done (a : α) : (pure a : Prog S α) = .done a := rfl

@[simp] theorem done_bind (a : α) (f : α → Prog S β) : (Prog.done a >>= f) = f a := rfl

@[simp] theorem call_bind (c : S.Call) (k : S.Resp c → Prog S α) (f : α → Prog S β) :
    (Prog.call c k >>= f) = .call c fun r => k r >>= f := rfl

@[simp] theorem perform_bind (c : S.Call) (f : S.Resp c → Prog S β) :
    (perform c >>= f) = .call c f := rfl

theorem bind_done (p : Prog S α) : (p >>= Prog.done) = p := by
  induction p with
  | done a => rfl
  | call c k ih =>
      rw [call_bind]
      exact congrArg _ (funext ih)

theorem bind_assoc (p : Prog S α) (f : α → Prog S β) (g : β → Prog S γ) :
    ((p >>= f) >>= g) = (p >>= fun a => f a >>= g) := by
  induction p with
  | done a => rfl
  | call c k ih =>
      simp only [call_bind]
      exact congrArg _ (funext ih)

instance : LawfulMonad (Prog S) :=
  LawfulMonad.mk' (Prog S) bind_done (fun _ _ => rfl) bind_assoc

end Prog

/-! ## Machines -/

/-- A machine answers every call and moves to its next state. -/
abbrev Machine (S : Signature) (σ : Type) := σ → (c : S.Call) → S.Resp c × σ

/-- A call together with the answer it got. -/
structure Event (S : Signature) where
  call : S.Call
  resp : S.Resp call

/-- The machine `m` with a log of every call it answered. -/
def Machine.logged (m : Machine S σ) : Machine S (σ × List (Event S)) := fun s c =>
  ((m s.1 c).1, ((m s.1 c).2, s.2 ++ [⟨c, (m s.1 c).1⟩]))

namespace Prog

/-- Play a program against a machine. -/
def run (m : Machine S σ) : Prog S α → σ → α × σ
  | .done a, s => (a, s)
  | .call c k, s => (k (m s c).1).run m (m s c).2

@[simp] theorem run_done (m : Machine S σ) (a : α) (s : σ) : (Prog.done a).run m s = (a, s) := rfl

@[simp] theorem run_call (m : Machine S σ) (c : S.Call) (k : S.Resp c → Prog S α) (s : σ) :
    (Prog.call c k).run m s = (k (m s c).1).run m (m s c).2 := rfl

theorem run_bind (m : Machine S σ) (p : Prog S α) (f : α → Prog S β) (s : σ) :
    (p >>= f).run m s = (f (p.run m s).1).run m (p.run m s).2 := by
  induction p generalizing s with
  | done a => rfl
  | call c k ih => exact ih (m s c).1 (m s c).2

/-- A property of states that no step of `m` breaks holds after every run. -/
theorem run_invariant (m : Machine S σ) (I : σ → Prop) (hstep : ∀ s c, I s → I (m s c).2)
    (p : Prog S α) (s : σ) (hs : I s) : I (p.run m s).2 := by
  induction p generalizing s with
  | done a => exact hs
  | call c k ih => exact ih (m s c).1 (m s c).2 (hstep s c hs)

/-- A property that every step of `m` reflects backwards held before the run if it holds after. -/
theorem run_reflects (m : Machine S σ) (G : σ → Prop) (hback : ∀ s c, G (m s c).2 → G s)
    (p : Prog S α) (s : σ) (hs : G (p.run m s).2) : G s := by
  induction p generalizing s with
  | done a => exact hs
  | call c k ih => exact hback s c (ih (m s c).1 (m s c).2 hs)

/-! ## Histories -/

/-- The calls of a run in order, each with the state it is made in and its answer. -/
def history (m : Machine S σ) : Prog S α → σ → List (σ × Event S)
  | .done _, _ => []
  | .call c k, s => (s, ⟨c, (m s c).1⟩) :: (k (m s c).1).history m (m s c).2

theorem history_bind (m : Machine S σ) (p : Prog S α) (f : α → Prog S β) (s : σ) :
    (p >>= f).history m s = p.history m s ++ (f (p.run m s).1).history m (p.run m s).2 := by
  induction p generalizing s with
  | done a => rfl
  | call c k ih => exact congrArg _ (ih (m s c).1 (m s c).2)

/-- An answer in a history is the machine's. -/
theorem resp_of_mem_history {m : Machine S σ} {p : Prog S α} {s : σ} {x : σ × Event S}
    (hx : x ∈ p.history m s) : x.2.resp = (m x.1 x.2.call).1 := by
  induction p generalizing s with
  | done a => exact absurd hx List.not_mem_nil
  | call c k ih =>
      rcases List.mem_cons.mp hx with rfl | hx
      · rfl
      · exact ih _ hx

/-- An invariant of the history so far and the state: it holds before every call and at the end, as
long as every call is `ok`. -/
theorem history_induction {m : Machine S σ} {I : List (σ × Event S) → σ → Prop}
    {ok : List (σ × Event S) → σ × Event S → Prop}
    (hstep : ∀ l s c, I l s → ok l (s, ⟨c, (m s c).1⟩) → I (l ++ [(s, ⟨c, (m s c).1⟩)]) (m s c).2)
    (p : Prog S α) (s : σ) (l₀ : List (σ × Event S)) (hs : I l₀ s)
    (hok : ∀ l x l', p.history m s = l ++ x :: l' → ok (l₀ ++ l) x) :
    (∀ l x l', p.history m s = l ++ x :: l' → I (l₀ ++ l) x.1) ∧
      I (l₀ ++ p.history m s) (p.run m s).2 := by
  induction p generalizing s l₀ with
  | done a =>
      refine ⟨fun l x l' h => by simp [history] at h, ?_⟩
      rw [history, List.append_nil]
      exact hs
  | call c k ih =>
      have hhead : ok l₀ (s, ⟨c, (m s c).1⟩) := by
        have := hok [] (s, ⟨c, (m s c).1⟩) _ rfl
        rwa [List.append_nil] at this
      obtain ⟨hall, hend⟩ := ih (m s c).1 (m s c).2 (l₀ ++ [(s, ⟨c, (m s c).1⟩)])
        (hstep l₀ s c hs hhead) fun l x l' h => by
          rw [List.append_assoc]
          exact hok (_ :: l) x l' (congrArg _ h)
      simp only [List.append_assoc, List.singleton_append] at hall hend
      refine ⟨fun l x l' h => ?_, hend⟩
      rcases List.cons_eq_append_iff.mp h with ⟨rfl, hl⟩ | ⟨l₁, rfl, hl⟩
      · cases hl
        rw [List.append_nil]
        exact hs
      · exact hall l₁ x l' hl

/-- Every call `p` makes, whatever it is answered, is in `K`. -/
def CallsOnly (K : S.Call → Prop) : Prog S α → Prop
  | .done _ => True
  | .call c k => K c ∧ ∀ r, (k r).CallsOnly K

theorem CallsOnly.of_mem_history {K : S.Call → Prop} {m : Machine S σ} {p : Prog S α} {s : σ}
    (h : p.CallsOnly K) {x : σ × Event S} (hx : x ∈ p.history m s) : K x.2.call := by
  induction p generalizing s with
  | done a => exact absurd hx List.not_mem_nil
  | call c k ih =>
      rcases List.mem_cons.mp hx with rfl | hx
      · exact h.1
      · exact ih _ (h.2 _) hx

theorem CallsOnly.mono {K K' : S.Call → Prop} {p : Prog S α} (h : p.CallsOnly K)
    (hK : ∀ c, K c → K' c) : p.CallsOnly K' := by
  induction p with
  | done a => trivial
  | call c k ih => exact ⟨hK c h.1, fun r => ih r (h.2 r)⟩

theorem callsOnly_true (p : Prog S α) : p.CallsOnly fun _ => True := by
  induction p with
  | done a => trivial
  | call c k ih => exact ⟨trivial, ih⟩

theorem CallsOnly.bind {K : S.Call → Prop} {p : Prog S α} {f : α → Prog S β} (h : p.CallsOnly K)
    (hf : ∀ a, (f a).CallsOnly K) : (p >>= f).CallsOnly K := by
  induction p with
  | done a => exact hf a
  | call c k ih => exact ⟨h.1, fun r => ih r (h.2 r)⟩

/-- `I` holds in every state of a run: before each call, and at the end. -/
def Always (m : Machine S σ) (I : σ → Prop) (p : Prog S α) (s : σ) : Prop :=
  (∀ x ∈ p.history m s, I x.1) ∧ I (p.run m s).2

@[simp] theorem always_done (m : Machine S σ) (I : σ → Prop) (a : α) (s : σ) :
    (Prog.done a).Always m I s ↔ I s := by
  simp [Always, history]

@[simp] theorem always_call (m : Machine S σ) (I : σ → Prop) (c : S.Call)
    (k : S.Resp c → Prog S α) (s : σ) :
    (Prog.call c k).Always m I s ↔ I s ∧ (k (m s c).1).Always m I (m s c).2 := by
  simp [Always, history, and_assoc]

theorem Always.head {m : Machine S σ} {I : σ → Prop} {p : Prog S α} {s : σ} (h : p.Always m I s) :
    I s := by
  cases p with
  | done a => exact (always_done m I a s).mp h
  | call c k => exact ((always_call m I c k s).mp h).1

theorem always_and (m : Machine S σ) (I J : σ → Prop) (p : Prog S α) (s : σ) :
    p.Always m (fun s => I s ∧ J s) s ↔ p.Always m I s ∧ p.Always m J s := by
  simp only [Always, forall_and]
  exact and_and_and_comm

/-- A property that no step of `m` breaks holds in every state of a run. -/
theorem always_of_step (m : Machine S σ) (I : σ → Prop) (hstep : ∀ s c, I s → I (m s c).2)
    (p : Prog S α) (s : σ) (hs : I s) : p.Always m I s := by
  induction p generalizing s with
  | done a => exact (always_done m I a s).mpr hs
  | call c k ih => exact (always_call m I c k s).mpr ⟨hs, ih _ _ (hstep s c hs)⟩

/-- An invariant that a call keeps exactly when it is `ok` holds in every state of a run exactly when
every call of the run is `ok`. -/
theorem always_iff (m : Machine S σ) (I : σ → Prop) (ok : σ → Event S → Prop)
    (hstep : ∀ s c, I s → (I (m s c).2 ↔ ok s ⟨c, (m s c).1⟩)) (p : Prog S α) (s : σ) (hs : I s) :
    p.Always m I s ↔ ∀ x ∈ p.history m s, ok x.1 x.2 := by
  induction p generalizing s with
  | done a => simpa [history] using hs
  | call c k ih =>
      rw [always_call, history, List.forall_mem_cons]
      constructor
      · rintro ⟨-, h⟩
        exact ⟨(hstep s c hs).mp h.head, (ih _ _ h.head).mp h⟩
      · rintro ⟨hok, h⟩
        have hnext := (hstep s c hs).mpr hok
        exact ⟨hs, (ih _ _ hnext).mpr h⟩

/-! ## Traces of a program -/

/-- `p.Runs t b`: with suitable answers `p` makes exactly the calls of `t` and returns `b`. -/
def Runs : Prog S α → List (Event S) → α → Prop
  | .done a, t, b => t = [] ∧ b = a
  | .call c k, t, b => ∃ r t', t = ⟨c, r⟩ :: t' ∧ (k r).Runs t' b

@[simp] theorem runs_done {a b : α} {t : List (Event S)} :
    (Prog.done a).Runs t b ↔ t = [] ∧ b = a := Iff.rfl

@[simp] theorem runs_call {c : S.Call} {k : S.Resp c → Prog S α} {t : List (Event S)} {b : α} :
    (Prog.call c k).Runs t b ↔ ∃ r t', t = ⟨c, r⟩ :: t' ∧ (k r).Runs t' b := Iff.rfl

/-- A trace of `p` and then `f` is a trace of `p`, and then one of `f` on its result. -/
theorem runs_bind {p : Prog S α} {f : α → Prog S β} {t : List (Event S)} {b : β} :
    (p >>= f).Runs t b ↔ ∃ t₁ t₂ a, t = t₁ ++ t₂ ∧ p.Runs t₁ a ∧ (f a).Runs t₂ b := by
  induction p generalizing t with
  | done a =>
      constructor
      · exact fun h => ⟨[], t, a, rfl, ⟨rfl, rfl⟩, h⟩
      · rintro ⟨t₁, t₂, a', rfl, ⟨rfl, rfl⟩, h⟩
        exact h
  | call c k ih =>
      constructor
      · rintro ⟨r, t', rfl, h⟩
        obtain ⟨t₁, t₂, a, rfl, hp, hf⟩ := (ih r).mp h
        exact ⟨⟨c, r⟩ :: t₁, t₂, a, rfl, ⟨r, t₁, rfl, hp⟩, hf⟩
      · rintro ⟨t₁, t₂, a, rfl, ⟨r, t', rfl, hp⟩, hf⟩
        exact ⟨r, t' ++ t₂, rfl, (ih r).mpr ⟨t', t₂, a, rfl, hp, hf⟩⟩

/-- A history is one of the program's own traces. -/
theorem runs_history (m : Machine S σ) (p : Prog S α) (s : σ) :
    p.Runs ((p.history m s).map Prod.snd) (p.run m s).1 := by
  induction p generalizing s with
  | done a => exact ⟨rfl, rfl⟩
  | call c k ih => exact ⟨(m s c).1, _, rfl, ih (m s c).1 (m s c).2⟩

/-- Every machine answers a program with one of the program's own traces. -/
theorem run_logged_runs (m : Machine S σ) (p : Prog S α) (s : σ) (l : List (Event S)) :
    ∃ t, p.Runs t (p.run m.logged (s, l)).1 ∧ (p.run m.logged (s, l)).2.2 = l ++ t ∧
      ∀ e ∈ t, ∃ s', e.resp = (m s' e.call).1 := by
  induction p generalizing s l with
  | done a => exact ⟨[], ⟨rfl, rfl⟩, by simp, by simp⟩
  | call c k ih =>
      obtain ⟨t, hruns, hlog, hans⟩ := ih (m s c).1 (m s c).2 (l ++ [⟨c, (m s c).1⟩])
      refine ⟨⟨c, (m s c).1⟩ :: t, ⟨_, t, rfl, hruns⟩, ?_, ?_⟩
      · rw [run_call]
        exact hlog.trans (by simp)
      · exact List.forall_mem_cons.mpr ⟨⟨s, rfl⟩, hans⟩

end Prog

end Vmb.Lib

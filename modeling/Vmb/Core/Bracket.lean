/-
# Vmb.Core.Bracket -- port calls and the life of the runtime

The port asks for `startup` before any other method. The domain layer ties the two ends of that
bracket to a `VmbSystem`, but cameras and registrations share the runtime and may outlive the system,
so their methods can run, and their identifiers can be used, after `shutdown`.
`conforms_bracketed` says that this is all that can go wrong: if no camera and no registration is alive
when a `VmbSystem` is dropped, and a system that is left is not used before one has been started again,
every port call is made while the runtime is started and names only identifiers issued since.
-/
import Vmb.Core.Trace

namespace Vmb.Core

open Vmb.Lib

/-! ## The bracket -/

/-- The call starts the runtime. -/
def startsRuntime : Event Port → Bool
  | ⟨.startup, .ok ()⟩ => true
  | _ => false

/-- The call shuts the runtime down. -/
def shutsDown : Event Port → Bool
  | ⟨.shutdown, _⟩ => true
  | _ => false

/-- The runtime is started after `log`. -/
def Started (log : List (Event Port)) : Prop := Since (startsRuntime ·) (shutsDown ·) log

/-- The identifier was issued after the last shutdown of `log`. -/
def Current (log : List (Event Port)) (id : Ident) : Prop :=
  Since (issued · = some id) (shutsDown ·) log

/-- A call allowed after `pre`: the runtime is started, and no identifier is older than the last
shutdown. -/
def Bracketed (pre : List (Event Port)) (e : Event Port) : Prop :=
  (e.call ≠ .startup → e.call ≠ .shutdown → Started pre) ∧ ∀ id ∈ e.call.names, Current pre id

/-- The operation makes a camera or a registration. -/
def Action.creates : Action → Bool
  | .openCamera _ => true
  | .registerDiscovery _ => true
  | _ => false

/-- The step drops a system. -/
def Step.DropsSystem (st : Step) : Prop :=
  st.op.Reachable st.world ∧ st.op.action = .drop ∧ st.world st.op.target = some .system

/-- The step starts a system. -/
def Step.StartsSystem (st : Step) : Prop :=
  st.op.Reachable st.world ∧ st.op.action = .startup ∧ st.world st.op.target = none ∧
    st.outcome = .finished (.returned (.ok ()))

/-- The step calls a method of a system: it lists the cameras, or makes a camera or a registration. -/
def Step.UsesSystem (st : Step) : Prop :=
  st.op.Reachable st.world ∧
    (st.op.action = .listCameras ∧ st.world st.op.target = some .system ∨
      st.op.action.creates = true ∧ st.world st.op.target = none)

instance (st : Step) : Decidable st.DropsSystem := by unfold Step.DropsSystem; infer_instance
instance (st : Step) : Decidable st.StartsSystem := by unfold Step.StartsSystem; infer_instance
instance (st : Step) : Decidable st.UsesSystem := by unfold Step.UsesSystem; infer_instance

/-- A system has been dropped, and none has been started since. -/
def Down (pre : List Step) : Prop := Since Step.DropsSystem Step.StartsSystem pre

instance (pre : List Step) : Decidable (Down pre) := by unfold Down; infer_instance

/-- Every object is a system. -/
def World.OnlySystems (W : World) : Prop := ∀ y obj, W y = some obj → obj = .system

/-- Systems outlive what was made through them: when one is dropped, no camera and no registration is
alive, and one that is left is not used before a system has been started again. -/
structure SystemLast (pre : List Step) (st : Step) : Prop where
  dropped : st.DropsSystem → st.world.OnlySystems
  used : st.UsesSystem → ¬ Down pre

variable {σ : Type} {m : VmbRuntime σ}

/-! ## Calls of an owner -/

theorem Started.append {log : List (Event Port)} {e : Event Port} (h : Started log)
    (he : shutsDown e = false) : Started (log ++ [e]) :=
  Since.append h (by simpa using he)

theorem Current.append {log : List (Event Port)} {e : Event Port} {id : Ident}
    (h : Current log id) (he : shutsDown e = false) : Current (log ++ [e]) id :=
  Since.append h (by simpa using he)

theorem mayCall.shutsDown {v : Holdings} {c : PortCall} (h : mayCall v c) (r : c.Resp) :
    shutsDown ⟨c, r⟩ = false := by
  cases c with
  | shutdown => exact absurd h id
  | _ => rfl

/-- While the runtime is started and everything owned is current, every call is allowed. -/
structure InBracket (s : σ × List (Event Port)) (L : Nat → Holdings) : Prop where
  conforms : Conforms Bracketed s.2
  started : Started s.2
  current : ∀ x id, (L x).owns id → Current s.2 id

theorem serves_inBracket (m : VmbRuntime σ) :
    Serves protocol m.logged InBracket Holdings.Idle fun _ => True where
  back _ _ _ := trivial
  step s L x c hs _ _ hc := by
    have hdown := hc.shutsDown (m s.1 c).1
    refine ⟨conforms_append.mpr ⟨hs.conforms, fun _ _ => hs.started, fun id hid => ?_⟩,
      hs.started.append hdown, fun y id hid => ?_⟩
    · exact hs.current x id (hc.owns hid)
    · by_cases hy : y = x
      · subst hy
        rw [Function.update_self] at hid
        rcases owns_afterCall hid with hid | hissued
        · exact (hs.current y id hid).append hdown
        · exact since_append.mpr (Or.inl hissued)
      · rw [Function.update_of_ne hy] at hid
        exact (hs.current y id hid).append hdown

/-! ## Operations -/

/-- Between two operations: everything owned is current, and the runtime is started while a camera or a
registration is alive, or a system that may be used. -/
structure Bracket (s : σ × List (Event Port)) (W : World) (pre : List Step) : Prop where
  conforms : Conforms Bracketed s.2
  started : ∀ x obj, W x = some obj → (obj = .system → ¬ Down pre) → Started s.2
  current : ∀ x id, (W.holdings x).owns id → Current s.2 id

theorem bracket_empty (s : σ) : Bracket (s, []) .empty [] where
  conforms := conforms_nil
  started _ _ hx := by cases hx
  current _ id hid := absurd hid (not_owns_empty id)

theorem not_down_of_append {pre : List Step} {st : Step} (h : ¬ Down (pre ++ [st]))
    (hst : ¬ st.StartsSystem) : ¬ Down pre :=
  fun hdown => h (since_append.mpr (Or.inr ⟨hdown, hst⟩))

theorem Action.Applies.creates {a : Action} (h : a.Applies none) (ha : a ≠ .startup) :
    a.creates = true := by
  cases h with
  | startup => exact absurd rfl ha
  | openCamera id => rfl
  | registerDiscovery f => rfl

theorem Action.Applies.systemCall {a : Action} (h : a.Applies (some .system)) :
    SystemCall a (some .system) := by
  cases h with
  | listCameras => exact Or.inr (Or.inl ⟨rfl, rfl⟩)
  | dropSystem => exact Or.inr (Or.inr ⟨rfl, rfl⟩)

section Operations

variable {s : σ × List (Event Port)} {W : World} {pre : List Step} {op : Op} {o : Outcome}

/-- The runtime is started whenever an owner calls a method. -/
theorem Bracket.started_of_applies (h : Bracket s W pre) (hvia : op.action.creates → op.via ≠ none)
    (hlast : SystemLast pre ⟨W, op, o⟩) (hsys : ¬ SystemCall op.action (W op.target))
    (hop : op.Reachable W) (happlies : op.action.Applies (W op.target)) : Started s.2 := by
  rcases hx : W op.target with - | - | ⟨cam, f⟩ | ⟨reg, f⟩ <;> rw [hx] at happlies hsys
  · -- a new object is made through a system that may be used
    have hcreates := happlies.creates fun ha => hsys (Or.inl ⟨ha, rfl⟩)
    obtain ⟨y, hy⟩ := Option.ne_none_iff_exists'.mp (hvia hcreates)
    exact h.started y _ (hop y hy) fun _ => hlast.used ⟨hop, Or.inr ⟨hcreates, hx⟩⟩
  · exact absurd happlies.systemCall hsys
  · exact h.started _ _ hx fun hc => by cases hc
  · exact h.started _ _ hx fun hc => by cases hc

/-- A step that makes no port call. -/
theorem Bracket.quiet (h : Bracket s W pre) {st : Step} (hst : ¬ st.StartsSystem) :
    Bracket s W (pre ++ [st]) where
  conforms := h.conforms
  started x obj hx hobj := h.started x obj hx fun hc => not_down_of_append (hobj hc) hst
  current := h.current

theorem bracket_owner (h : Bracket s W pre) (hvia : op.action.creates → op.via ≠ none)
    (hlast : SystemLast pre ⟨W, op, o⟩) (hsys : ¬ SystemCall op.action (W op.target)) :
    Bracket ((op.run W).run m.logged s).2 ((op.run W).run m.logged s).1.2 (pre ++ [⟨W, op, o⟩]) := by
  have hst : ¬ Step.StartsSystem ⟨W, op, o⟩ := fun hst => hsys (Or.inl ⟨hst.2.1, hst.2.2.1⟩)
  by_cases hop : op.Reachable W
  · rcases op.action.perform_cases (W op.target) with hskipped | happlies
    · unfold Op.run
      rw [if_pos hop, hskipped]
      simp only [Prog.run_bind, Prog.pure_eq_done, Prog.run_done, Function.update_eq_self]
      exact h.quiet hst
    have habs : InBracket s W.holdings :=
      ⟨h.conforms, h.started_of_applies hvia hlast hsys hop happlies, h.current⟩
    have hrun := Op.run_sound (serves_inBracket m) op W s habs hsys ?_ trivial
    · exact ⟨hrun.conforms, fun _ _ _ _ => hrun.started, hrun.current⟩
    · -- an abandoned callback is not owned any more
      intro cb _ s L y f hs _
      refine ⟨hs.conforms, hs.started, fun z id hid => ?_⟩
      by_cases hz : z = y
      · subst hz
        rw [Function.update_self] at hid
        refine hs.current z id ?_
        cases id with
        | frameCallback cb => cases hid
        | _ => exact hid
      · rw [Function.update_of_ne hz] at hid
        exact hs.current z id hid
  · unfold Op.run
    rw [if_neg hop]
    exact h.quiet hst

theorem bracket_startup (h : Bracket s W pre) (hop : op.Reachable W) (ha : op.action = .startup)
    (hx : W op.target = none) :
    Bracket ((op.run W).run m.logged s).2 ((op.run W).run m.logged s).1.2
      (pre ++ [⟨W, op, ((op.run W).run m.logged s).1.1⟩]) := by
  rw [Op.run_startup hop ha hx]
  refine ⟨conforms_append.mpr ⟨h.conforms, fun hc => absurd rfl hc, by simp [PortCall.names]⟩,
    fun x obj hlive hobj => ?_, fun x id hid => ?_⟩
  · simp only [Machine.logged] at hlive hobj ⊢
    generalize (m s.1 .startup).1 = r at hlive hobj ⊢
    rcases r with e | ⟨⟨⟩⟩
    · -- nothing was started, so the runtime is still as the others need it
      by_cases hxt : x = op.target
      · rw [hxt, Function.update_self] at hlive
        cases hlive
      · rw [Function.update_of_ne hxt] at hlive
        refine (h.started x obj hlive fun hc => not_down_of_append (hobj hc) ?_).append rfl
        rintro ⟨-, -, -, houtcome⟩
        cases houtcome
    · exact since_append.mpr (Or.inl rfl)
  · refine (h.current x id ?_).append rfl
    simp only [World.holdings_update] at hid
    by_cases hxt : x = op.target
    · subst hxt
      rw [Function.update_self] at hid
      refine absurd hid ?_
      split <;> exact not_owns_empty id
    · rw [Function.update_of_ne hxt] at hid
      exact hid

theorem bracket_listCameras (h : Bracket s W pre) (hlast : SystemLast pre ⟨W, op, o⟩)
    (hop : op.Reachable W) (ha : op.action = .listCameras) (hx : W op.target = some .system) :
    Bracket ((op.run W).run m.logged s).2 ((op.run W).run m.logged s).1.2 (pre ++ [⟨W, op, o⟩]) := by
  have hstarted : Started s.2 :=
    h.started op.target _ hx fun _ => hlast.used ⟨hop, Or.inl ⟨ha, hx⟩⟩
  rw [Op.run_listCameras hop ha hx]
  exact ⟨conforms_append.mpr ⟨h.conforms, fun _ _ => hstarted, by simp [PortCall.names]⟩,
    fun _ _ _ _ => hstarted.append rfl, fun x id hid => (h.current x id hid).append rfl⟩

/-- The shutdown leaves only systems alive, and they are not used afterwards. -/
theorem bracket_dropSystem (h : Bracket s W pre) (hlast : SystemLast pre ⟨W, op, o⟩)
    (hop : op.Reachable W) (ha : op.action = .drop) (hx : W op.target = some .system) :
    Bracket ((op.run W).run m.logged s).2 ((op.run W).run m.logged s).1.2 (pre ++ [⟨W, op, o⟩]) := by
  have hdrops : Step.DropsSystem ⟨W, op, o⟩ := ⟨hop, ha, hx⟩
  have honly : World.OnlySystems (Function.update W op.target none) := by
    intro x obj hlive
    by_cases hxt : x = op.target
    · rw [hxt, Function.update_self] at hlive
      cases hlive
    · rw [Function.update_of_ne hxt] at hlive
      exact hlast.dropped hdrops x obj hlive
  rw [Op.run_dropSystem hop ha hx]
  refine ⟨conforms_append.mpr ⟨h.conforms, fun _ hc => absurd rfl hc, by simp [PortCall.names]⟩,
    fun x obj hlive hobj => ?_, fun x id hid => ?_⟩
  · exact absurd (since_append.mpr (Or.inl hdrops)) (hobj (honly x obj hlive))
  · refine absurd hid ?_
    show ¬ (ownedBy (Function.update W op.target none x)).owns id
    rcases hlive : Function.update W op.target none x with - | obj
    · exact not_owns_empty id
    · rw [honly x obj hlive]
      exact not_owns_empty id

/-- **Every operation keeps the bracket.** -/
theorem bracket_step (h : Bracket s W pre) (hvia : op.action.creates → op.via ≠ none)
    (hlast : SystemLast pre ⟨W, op, ((op.run W).run m.logged s).1.1⟩) :
    Bracket ((op.run W).run m.logged s).2 ((op.run W).run m.logged s).1.2
      (pre ++ [⟨W, op, ((op.run W).run m.logged s).1.1⟩]) := by
  by_cases hsys : SystemCall op.action (W op.target)
  · by_cases hop : op.Reachable W
    · rcases hsys with ⟨ha, hx⟩ | ⟨ha, hx⟩ | ⟨ha, hx⟩
      · exact bracket_startup h hop ha hx
      · exact bracket_listCameras h hlast hop ha hx
      · exact bracket_dropSystem h hlast hop ha hx
    · have hst : ¬ Step.StartsSystem ⟨W, op, ((op.run W).run m.logged s).1.1⟩ := fun hst => hop hst.1
      have hquiet := h.quiet hst
      unfold Op.run at hquiet ⊢
      rw [if_neg hop] at hquiet ⊢
      exact hquiet
  · exact bracket_owner h hvia hlast hsys

end Operations

/-! ## Runs -/

/-- **The started bracket.** In a run that makes cameras and registrations through a live system
only, drops a system only when no camera and no registration is alive, and uses no system between a drop
of one and the next start, every port call but `startup` and `shutdown` is made while the runtime is
started, and no identifier from before a shutdown is passed to the runtime after it. -/
theorem conforms_bracketed (m : VmbRuntime σ) (s : σ) (ops : List Op)
    (hvia : ∀ op ∈ ops, op.action.creates → op.via ≠ none)
    (hlast : Conforms SystemLast ((runOps ops .empty).run m.logged (s, [])).1.1) :
    Conforms Bracketed ((runOps ops .empty).run m.logged (s, [])).2.2 := by
  have hsteps : Conforms (fun pre st => SystemLast pre st ∧ (st.op.action.creates → st.op.via ≠ none))
      ((runOps ops .empty).run m.logged (s, [])).1.1 := by
    intro pre st post h
    have hmem : st ∈ ((runOps ops .empty).run m.logged (s, [])).1.1 := by
      rw [h]
      exact List.mem_append_right _ List.mem_cons_self
    exact ⟨hlast pre st post h, hvia st.op (mem_of_mem_steps hmem)⟩
  exact (runOps_invariant Bracket
    (fun pre st => SystemLast pre st ∧ (st.op.action.creates → st.op.via ≠ none))
    (fun _ _ _ _ h hop => bracket_step h hop.2 hop.1) ops .empty (s, []) [] (bracket_empty s)
    hsteps).conforms

/-- Two systems; one is dropped and started again, then a camera is opened through the other and dropped,
and both systems are dropped. -/
def systemLast : List Op :=
  [⟨0, none, .startup⟩, ⟨2, none, .startup⟩, ⟨2, none, .drop⟩, ⟨2, none, .startup⟩,
    ⟨1, some 0, .openCamera "cam-a"⟩, ⟨1, none, .drop⟩, ⟨0, none, .drop⟩, ⟨2, none, .drop⟩]

/-- In the worlds of that run only the names 0, 1 and 2 are bound. -/
theorem onlySystems_systemLast (k : Nat)
    (h : ∀ y < 3, ((runOps (systemLast.take k) .empty).run countingRuntime.logged (1, [])).1.2 y = none ∨
      ((runOps (systemLast.take k) .empty).run countingRuntime.logged (1, [])).1.2 y = some .system) :
    ((runOps (systemLast.take k) .empty).run countingRuntime.logged (1, [])).1.2.OnlySystems := by
  intro y obj hy
  by_cases hlt : y < 3
  · rcases h y hlt with hnone | hsystem
    · cases hnone.symm.trans hy
    · cases hsystem.symm.trans hy
      rfl
  · have htargets : ∀ op ∈ systemLast, op.target < 3 := by decide
    rw [run_runOps_other] at hy
    · cases hy
    · intro op hop heq
      exact hlt (heq ▸ htargets op (List.mem_of_mem_take hop))

theorem conforms_bracketed_systemLast :
    Conforms Bracketed ((runOps systemLast .empty).run countingRuntime.logged (1, [])).2.2 := by
  refine conforms_bracketed countingRuntime 1 systemLast (by decide) ?_
  refine conforms_cons.mpr ⟨⟨fun h => absurd h.2.1 (by decide), by decide⟩, ?_⟩
  refine conforms_cons.mpr ⟨⟨fun h => absurd h.2.1 (by decide), by decide⟩, ?_⟩
  refine conforms_cons.mpr ⟨⟨fun _ => onlySystems_systemLast 2 (by decide), by decide⟩, ?_⟩
  refine conforms_cons.mpr ⟨⟨fun h => absurd h.2.1 (by decide), by decide⟩, ?_⟩
  refine conforms_cons.mpr ⟨⟨fun h => absurd h.2.1 (by decide), by decide⟩, ?_⟩
  refine conforms_cons.mpr ⟨⟨fun h => absurd h.2.2 (by decide), by decide⟩, ?_⟩
  refine conforms_cons.mpr ⟨⟨fun _ => onlySystems_systemLast 6 (by decide), by decide⟩, ?_⟩
  exact conforms_cons.mpr ⟨⟨fun _ => onlySystems_systemLast 7 (by decide), by decide⟩, conforms_nil⟩

/-- The system is dropped before its camera, as the fields of a struct are in declaration order. -/
def systemFirst : List Op :=
  [⟨0, none, .startup⟩, ⟨1, some 0, .openCamera "cam-a"⟩, ⟨0, none, .drop⟩, ⟨1, none, .drop⟩]

/-- The camera is closed on a runtime that has been shut down. -/
theorem not_conforms_bracketed_systemFirst :
    ¬ Conforms Bracketed ((runOps systemFirst .empty).run countingRuntime.logged (1, [])).2.2 := by
  intro h
  have hclose := h [⟨.startup, .ok ()⟩, ⟨.openCamera "cam-a", .returned (.ok ⟨1, by decide⟩)⟩,
    ⟨.shutdown, ()⟩] ⟨.closeCamera ⟨1, by decide⟩, ()⟩ [] rfl
  have hstarted := hclose.1 (by simp) (by simp)
  revert hstarted
  unfold Started
  decide

end Vmb.Core

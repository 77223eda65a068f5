/-
# Vmb.Fake.Identifiers -- the identifiers of the fake

The five tables of identifiers and the counter of the fake, read as a register. A port method files an
identifier only under the number it has drawn last, and issues what it files (`accesses_files`).

`active_captures` is not one of them: its keys are the handles that `capture_start` and `queue_frame`
are called with, and the fake takes any (`capturesNamed_interleaved`).
-/
import Vmb.Core.Trace
import Vmb.Fake.Atomic
import Vmb.Lib.Fresh

namespace Vmb.Fake

open Vmb.Lib Vmb.Core

/-- The identifier is a key of its table. -/
def FakeState.Has (s : FakeState) : Ident → Prop
  | .camera h => h ∈ s.cameras
  | .slot slot => slot ∈ s.announcedFrames
  | .frameCallback id => id ∈ s.frameCallbacks
  | .discoveryCallback id => id ∈ s.discoveryCallbacks
  | .registration r => r ∈ s.discoveryRegs

/-- The tables and the counter of the fake. -/
def register : Register Accesses FakeState Ident where
  kind
    | .fetchAdd => .draw
    | .insertCamera h _ => .file (.camera h)
    | .insertAnnounced slot _ => .file (.slot slot)
    | .insertFrameCallback id _ => .file (.frameCallback id)
    | .insertDiscoveryCallback id _ => .file (.discoveryCallback id)
    | .insertReg r _ => .file (.registration r)
    | _ => .other
  drawn
    | .fetchAdd, id => UInt64.toNat id
    | _, _ => 0
  num k := k.asU64.toNat
  counter s := s.counter
  Present s k := s.Has k

/-! ## Accesses -/

theorem access_maybeFail_counter (s : FakeState) (method : Method) :
    (s.maybeFail method).2.counter = s.counter := by
  unfold FakeState.maybeFail
  dsimp only
  split <;> rfl

theorem has_maybeFail {s : FakeState} {method : Method} {k : Ident}
    (hk : (s.maybeFail method).2.Has k) : s.Has k := by
  unfold FakeState.maybeFail at hk
  dsimp only at hk
  split at hk <;> cases k <;> exact hk

/-- An access puts no identifier into a table but the one it inserts. -/
theorem has_access {s : FakeState} {c : Access} {k : Ident} (hk : (s.access c).2.Has k) :
    s.Has k ∨ register.kind c = .file k := by
  cases c with
  | insertCamera h id =>
      cases k with
      | camera h' =>
          exact (mem_insert_cases hk).imp_right (congrArg (Filing.file ∘ Ident.camera))
      | _ => exact Or.inl hk
  | insertAnnounced slot h =>
      cases k with
      | slot slot' =>
          exact (mem_insert_cases hk).imp_right (congrArg (Filing.file ∘ Ident.slot))
      | _ => exact Or.inl hk
  | insertFrameCallback id cb =>
      cases k with
      | frameCallback id' =>
          exact (mem_insert_cases hk).imp_right (congrArg (Filing.file ∘ Ident.frameCallback))
      | _ => exact Or.inl hk
  | insertDiscoveryCallback id cb =>
      cases k with
      | discoveryCallback id' =>
          exact (mem_insert_cases hk).imp_right (congrArg (Filing.file ∘ Ident.discoveryCallback))
      | _ => exact Or.inl hk
  | insertReg r cb =>
      cases k with
      | registration r' =>
          exact (mem_insert_cases hk).imp_right (congrArg (Filing.file ∘ Ident.registration))
      | _ => exact Or.inl hk
  | removeCamera h =>
      cases k with
      | camera h' => exact Or.inl (Finmap.mem_erase.mp hk).2
      | _ => exact Or.inl hk
  | retainAnnounced h =>
      cases k with
      | slot slot' => exact Or.inl (mem_of_mem_retain hk)
      | _ => exact Or.inl hk
  | removeFrameCallback id =>
      cases k with
      | frameCallback id' => exact Or.inl (Finmap.mem_erase.mp hk).2
      | _ => exact Or.inl hk
  | removeDiscoveryCallback id =>
      cases k with
      | discoveryCallback id' => exact Or.inl (Finmap.mem_erase.mp hk).2
      | _ => exact Or.inl hk
  | removeReg r =>
      cases k with
      | registration r' => exact Or.inl (Finmap.mem_erase.mp hk).2
      | _ => exact Or.inl hk
  | maybeFail method => exact Or.inl (has_maybeFail hk)
  | _ => cases k <;> exact Or.inl hk

theorem register_obeys : register.Obeys FakeState.access (2 ^ 64) where
  draw s c hkind := by
    cases c with
    | fetchAdd => rfl
    | _ => cases hkind
  drawn s c hkind hlt := by
    cases c with
    | fetchAdd => exact UInt64.toNat_ofNat_of_lt hlt
    | _ => cases hkind
  keep s c hkind := by
    cases c with
    | fetchAdd => exact absurd rfl hkind
    | maybeFail method => exact access_maybeFail_counter s method
    | _ => rfl
  present s c k hk := has_access hk

/-! ## What a method files -/

section Files

variable {α : Type} {v : Register.View Ident} {Q : α → Register.View Ident → Prop}

theorem meets_access {c : Access} {f : c.Resp → Prog Accesses α} (hkind : register.kind c = .other)
    (h : ∀ r, (f r).Meets register.discipline Q v) :
    (access c >>= f).Meets register.discipline Q v := meets_other hkind h

theorem meets_fetchAdd {f : UInt64 → Prog Accesses α}
    (h : ∀ id, (f id).Meets register.discipline Q { v with held := some id.toNat }) :
    (access .fetchAdd >>= f).Meets register.discipline Q v := meets_draw rfl h

theorem meets_insert {c : Access} {f : c.Resp → Prog Accesses α} {k : Ident}
    (hkind : register.kind c = .file k) (hheld : v.held = some k.asU64.toNat)
    (h : ∀ r, (f r).Meets register.discipline Q ⟨v.filed ++ [k], none⟩) :
    (access c >>= f).Meets register.discipline Q v := meets_file hkind hheld h

/-- A rigged failure files nothing. -/
theorem meets_fallible {call : FakeCall} {method : Method} {k : Prog Accesses (Result α)}
    {Q : Result α → Register.View Ident → Prop} (herror : ∀ e, Q (.error e) v)
    (hk : k.Meets register.discipline Q v) :
    (Atomic.fallible call method k).Meets register.discipline Q v := by
  refine meets_access rfl fun _ => meets_access rfl fun r => ?_
  cases r with
  | error e => exact herror e
  | ok _ => exact hk

variable (v) in
/-- From `v`, a method that returns `r` has filed what `r` issues. -/
def Files (c : PortCall) : Prop :=
  (accesses c).Meets register.discipline
    (fun r v' => v'.filed = v.filed ++ (issued ⟨c, r⟩).toList) v

theorem startup_files : Files v .startup := by
  refine meets_fallible (fun e => v.quiet) (meets_access rfl fun exchanged => ?_)
  dsimp only
  split
  · exact v.quiet
  · exact v.quiet

theorem openCamera_files (id : String) : Files v (.openCamera id) := by
  unfold Files accesses Atomic.openCamera
  refine meets_access rfl fun _ => meets_access rfl fun r => ?_
  cases r with
  | error e => exact v.quiet
  | ok _ =>
      unfold Atomic.nextId
      refine meets_fetchAdd fun n => ?_
      by_cases hn : n ≠ 0
      · rw [dif_pos hn]
        exact meets_insert rfl rfl fun _ => rfl
      · rw [dif_neg hn]
        exact v.quiet

/-- **Every method files exactly what it issues**, under the number it has drawn. -/
theorem accesses_files (c : PortCall) (v : Register.View Ident) : Files v c := by
  cases c with
  | startup => exact startup_files
  | shutdown => exact meets_access rfl fun _ => meets_access rfl fun _ => v.quiet
  | listCameras => exact meets_fallible (fun e => v.quiet) (meets_access rfl fun _ => v.quiet)
  | openCamera id => exact openCamera_files id
  | closeCamera h =>
      exact meets_access rfl fun _ => meets_access rfl fun _ => meets_access rfl fun _ => v.quiet
  | loadSettings h path => exact meets_fallible (fun e => v.quiet) v.quiet
  | runFeatureCommand h name => exact meets_fallible (fun e => v.quiet) v.quiet
  | payloadSize h => exact meets_fallible (fun e => v.quiet) (meets_access rfl fun _ => v.quiet)
  | announceFrame h size =>
      refine meets_fallible (fun e => v.quiet) (meets_fetchAdd fun slot => ?_)
      exact meets_insert rfl rfl fun _ => rfl
  | captureStart h => exact meets_fallible (fun e => v.quiet) (meets_access rfl fun _ => v.quiet)
  | queueFrame h slot cb =>
      exact meets_fallible (fun e => v.quiet) (meets_access rfl fun _ => v.quiet)
  | captureEnd h => exact meets_access rfl fun _ => meets_access rfl fun _ => v.quiet
  | captureQueueFlush h => exact meets_access rfl fun _ => v.quiet
  | frameRevokeAll h => exact meets_access rfl fun _ => meets_access rfl fun _ => v.quiet
  | registerDiscovery cb =>
      refine meets_fallible (fun e => v.quiet) (meets_fetchAdd fun r => ?_)
      exact meets_insert rfl rfl fun _ => rfl
  | unregisterDiscovery r => exact meets_access rfl fun _ => meets_access rfl fun _ => v.quiet
  | installFrameCallback cb =>
      exact meets_fetchAdd fun id => meets_access rfl fun _ => meets_insert rfl rfl fun _ => rfl
  | uninstallFrameCallback id => exact meets_access rfl fun _ => meets_access rfl fun _ => v.quiet
  | installDiscoveryCallback cb =>
      exact meets_fetchAdd fun id => meets_access rfl fun _ => meets_insert rfl rfl fun _ => rfl
  | uninstallDiscoveryCallback id =>
      exact meets_access rfl fun _ => meets_access rfl fun _ => v.quiet

end Files

/-! ## Threads -/

/-- Threads that call methods of one fake, one access at a time. -/
def interleaved {ι : Type} [DecidableEq ι] (config : Config) (moves : List (Move ι PortCall)) :
    Pool Accesses FakeState ι (List Ident) (Event Port) :=
  (Pool.init (.configured config) []).run FakeState.access (issuing accesses) moves

theorem not_has_configured {config : Config} {k : Ident} : ¬ (FakeState.configured config).Has k := by
  cases k <;> exact Finmap.notMem_empty

/-- **The identifiers of the fake are fresh**, in every interleaving. -/
theorem keysFresh_interleaved {ι : Type} [DecidableEq ι] (config : Config)
    (moves : List (Move ι PortCall))
    (hlimit : (register.draws (interleaved config moves).log).length < 2 ^ 64 - 1) :
    KeysFresh register (interleaved config) moves := by
  refine keysFresh (s := FakeState.configured config) register_obeys (fun c ids v hv => ?_) Nat.one_pos
    (fun k => not_has_configured) moves ?_
  · refine Prog.meets_bind.mpr ((accesses_files c v).mono fun r v' hr => ?_)
    show v'.filed = ids ++ (issued ⟨c, r⟩).toList
    rw [hr, hv]
  · show 1 + (register.draws (interleaved config moves).log).length ≤ 2 ^ 64
    omega

/-! ## Captures -/

/-- The camera a call makes an entry of `active_captures` for. -/
def capturedBy : PortCall → Option CameraHandle
  | .captureStart h => some h
  | .queueFrame h _ _ => some h
  | _ => none

section Captures

variable {ι : Type}

/-- The handle has been passed to `capture_start` or `queue_frame`. -/
def Named (moves : List (Move ι PortCall)) (h : CameraHandle) : Prop :=
  ∃ t c, Move.invoke t c ∈ moves ∧ capturedBy c = some h

theorem Named.mono {moves moves' : List (Move ι PortCall)} {h : CameraHandle} (hn : Named moves h)
    (hsub : moves ⊆ moves') : Named moves' h := by
  obtain ⟨t, c, hmem, hc⟩ := hn
  exact ⟨t, c, hsub hmem, hc⟩

/-- What the fake promises of `active_captures`: its keys are handles that callers have passed, so that
they have been issued if these have; and an entry that is there is extended. -/
structure CapturesNamed
    (run : List (Move ι PortCall) → Pool Accesses FakeState ι (List Ident) (Event Port))
    (moves : List (Move ι PortCall)) : Prop where
  named : ∀ before, before <+: moves → ∀ h ∈ (run before).shared.activeCaptures, Named before h
  below : (∀ before t c h, before ++ [.invoke t c] <+: moves → capturedBy c = some h →
      h.asU64.toNat < (run before).shared.counter) →
    ∀ before, before <+: moves → ∀ h ∈ (run before).shared.activeCaptures,
      h.asU64.toNat < (run before).shared.counter
  extended : ∀ before t, before ++ [.step t] <+: moves → ∀ h slots,
    (run before).Calls t (.pushCapture h slots) →
    (run (before ++ [.step t])).shared.activeCaptures.lookup h =
      some (((run before).shared.activeCaptures.lookup h).getD [] ++ slots)

/-- The accesses that make entries for handles in `N` only. -/
def Pushes (N : CameraHandle → Prop) : Access → Prop
  | .pushCapture h _ => N h
  | _ => True

variable {N : CameraHandle → Prop} {α : Type}

theorem callsOnly_access {c : Access} {f : c.Resp → Prog Accesses α} (hc : Pushes N c)
    (h : ∀ r, (f r).CallsOnly (Pushes N)) : (access c >>= f).CallsOnly (Pushes N) := ⟨hc, h⟩

theorem callsOnly_fallible {call : FakeCall} {method : Method} {k : Prog Accesses (Result α)}
    (hk : k.CallsOnly (Pushes N)) : (Atomic.fallible call method k).CallsOnly (Pushes N) := by
  refine callsOnly_access trivial fun _ => callsOnly_access trivial fun r => ?_
  cases r with
  | error e => exact trivial
  | ok _ => exact hk

theorem startup_pushes : Atomic.startup.CallsOnly (Pushes N) := by
  refine callsOnly_fallible (callsOnly_access trivial fun exchanged => ?_)
  split
  · exact trivial
  · exact trivial

theorem openCamera_pushes (id : String) : (Atomic.openCamera id).CallsOnly (Pushes N) := by
  unfold Atomic.openCamera
  refine callsOnly_access trivial fun _ => callsOnly_access trivial fun r => ?_
  cases r with
  | error e => exact trivial
  | ok _ =>
      unfold Atomic.nextId
      refine callsOnly_access trivial fun (n : UInt64) => ?_
      by_cases hn : n ≠ 0
      · rw [dif_pos hn]
        exact callsOnly_access trivial fun _ => trivial
      · rw [dif_neg hn]
        exact trivial

theorem accesses_pushes (c : PortCall) :
    (accesses c).CallsOnly (Pushes fun h => capturedBy c = some h) := by
  cases c with
  | captureStart h => exact callsOnly_fallible ⟨rfl, fun _ => trivial⟩
  | queueFrame h slot cb => exact callsOnly_fallible ⟨rfl, fun _ => trivial⟩
  | startup => exact startup_pushes
  | shutdown => exact ⟨trivial, fun _ => ⟨trivial, fun _ => trivial⟩⟩
  | listCameras => exact callsOnly_fallible ⟨trivial, fun _ => trivial⟩
  | openCamera id => exact openCamera_pushes id
  | closeCamera h => exact ⟨trivial, fun _ => ⟨trivial, fun _ => ⟨trivial, fun _ => trivial⟩⟩⟩
  | loadSettings h path => exact callsOnly_fallible trivial
  | runFeatureCommand h name => exact callsOnly_fallible trivial
  | payloadSize h => exact callsOnly_fallible ⟨trivial, fun _ => trivial⟩
  | announceFrame h size =>
      exact callsOnly_fallible ⟨trivial, fun _ => ⟨trivial, fun _ => trivial⟩⟩
  | captureEnd h => exact ⟨trivial, fun _ => ⟨trivial, fun _ => trivial⟩⟩
  | captureQueueFlush h => exact ⟨trivial, fun _ => trivial⟩
  | frameRevokeAll h => exact ⟨trivial, fun _ => ⟨trivial, fun _ => trivial⟩⟩
  | registerDiscovery cb =>
      exact callsOnly_fallible ⟨trivial, fun _ => ⟨trivial, fun _ => trivial⟩⟩
  | unregisterDiscovery r => exact ⟨trivial, fun _ => ⟨trivial, fun _ => trivial⟩⟩
  | installFrameCallback cb =>
      exact ⟨trivial, fun _ => ⟨trivial, fun _ => ⟨trivial, fun _ => trivial⟩⟩⟩
  | uninstallFrameCallback id => exact ⟨trivial, fun _ => ⟨trivial, fun _ => trivial⟩⟩
  | installDiscoveryCallback cb =>
      exact ⟨trivial, fun _ => ⟨trivial, fun _ => ⟨trivial, fun _ => trivial⟩⟩⟩
  | uninstallDiscoveryCallback id => exact ⟨trivial, fun _ => ⟨trivial, fun _ => trivial⟩⟩

theorem mem_captures_access {s : FakeState} {c : Access} {h : CameraHandle}
    (hh : h ∈ (s.access c).2.activeCaptures) :
    h ∈ s.activeCaptures ∨ ∃ slots, c = .pushCapture h slots := by
  cases c with
  | pushCapture h' slots =>
      rcases mem_insert_cases hh with hh | rfl
      · exact Or.inl hh
      · exact Or.inr ⟨slots, rfl⟩
  | removeCapture h' => exact Or.inl (Finmap.mem_erase.mp hh).2
  | maybeFail method =>
      left
      simp only [FakeState.access, FakeState.maybeFail] at hh
      split at hh <;> exact hh
  | _ => exact Or.inl hh

variable [DecidableEq ι] {P : Pool Accesses FakeState ι (List Ident) (Event Port)}
  {moves : List (Move ι PortCall)}

/-- What a schedule keeps: an entry, and an access that is about to make one, is for a handle that has
been passed. -/
structure PushesNamed (moves : List (Move ι PortCall))
    (P : Pool Accesses FakeState ι (List Ident) (Event Port)) : Prop where
  keys : ∀ h ∈ P.shared.activeCaptures, Named moves h
  running : ∀ t p, (P.threads t).running = some p → p.CallsOnly (Pushes (Named moves))

omit [DecidableEq ι] in
theorem Pushes.mono {N' : CameraHandle → Prop} (hN : ∀ h, N h → N' h) (c : Access)
    (hc : Pushes N c) : Pushes N' c := by
  cases c with
  | pushCapture h slots => exact hN h hc
  | _ => exact trivial

theorem PushesNamed.move (h : PushesNamed moves P) (mv : Move ι PortCall) :
    PushesNamed (moves ++ [mv]) (P.move FakeState.access (issuing accesses) mv) := by
  have hnamed : ∀ h', Named moves h' → Named (moves ++ [mv]) h' := fun h' hn =>
    hn.mono (List.subset_append_left _ _)
  have hold : ∀ t p, (P.threads t).running = some p → p.CallsOnly (Pushes (Named (moves ++ [mv]))) :=
    fun t p hp => (h.running t p hp).mono (Pushes.mono hnamed)
  have hkeys : ∀ h' ∈ P.shared.activeCaptures, Named (moves ++ [mv]) h' := fun h' hh =>
    hnamed h' (h.keys h' hh)
  have hupdate : ∀ t thread,
      (∀ p, thread.running = some p → p.CallsOnly (Pushes (Named (moves ++ [mv])))) →
      ∀ u p, (Function.update P.threads t thread u).running = some p →
        p.CallsOnly (Pushes (Named (moves ++ [mv]))) := by
    intro t thread hthread u p hp
    rcases eq_or_ne u t with rfl | hne
    · rw [Function.update_self] at hp
      exact hthread p hp
    · rw [Function.update_of_ne hne] at hp
      exact hold u p hp
  cases mv with
  | invoke t c =>
      simp only [Pool.move]
      rcases hrun : (P.threads t).running with - | p
      · refine ⟨hkeys, hupdate t _ fun p hp => ?_⟩
        obtain rfl := Option.some.inj hp
        have hcaptured : ∀ h', capturedBy c = some h' → Named (moves ++ [.invoke t c]) h' :=
          fun h' hc => ⟨t, c, List.mem_append_right _ (List.mem_singleton_self _), hc⟩
        exact ((accesses_pushes c).mono (Pushes.mono hcaptured)).bind fun r => trivial
      · exact ⟨hkeys, hold⟩
  | step t =>
      simp only [Pool.move]
      rcases hrun : (P.threads t).running with - | ⟨⟨r, ids⟩ | ⟨c, k⟩⟩
      · exact ⟨hkeys, hold⟩
      · exact ⟨hkeys, hupdate t _ fun p hp => by cases hp⟩
      · have hcall := hold t _ hrun
        refine ⟨fun h' hh => ?_, hupdate t _ fun p hp => ?_⟩
        · rcases mem_captures_access hh with hh | ⟨slots, rfl⟩
          · exact hkeys h' hh
          · exact hcall.1
        · obtain rfl := Option.some.inj hp
          exact hcall.2 _

theorem pushesNamed_interleaved (config : Config) (moves : List (Move ι PortCall)) :
    PushesNamed moves (interleaved config moves) := by
  induction moves using List.reverseRecOn with
  | nil => exact ⟨fun h hh => absurd hh Finmap.notMem_empty, fun t p hp => nomatch hp⟩
  | append_singleton moves mv ih =>
      unfold interleaved at ih ⊢
      rw [Pool.run_append]
      exact ih.move mv

theorem capturesNamed_interleaved (config : Config) (moves : List (Move ι PortCall)) :
    CapturesNamed (interleaved config) moves := by
  refine ⟨fun before _ => (pushesNamed_interleaved config before).keys, ?_, ?_⟩
  · intro hissued before hbefore h hh
    obtain ⟨t, c, hmem, hc⟩ := (pushesNamed_interleaved config before).keys h hh
    obtain ⟨earlier, later, rfl⟩ := List.append_of_mem hmem
    have hbegun : earlier ++ [.invoke t c] <+: earlier ++ .invoke t c :: later := ⟨later, by simp⟩
    have hlt := hissued earlier t c h (hbegun.trans hbefore) hc
    have hsplit : interleaved config (earlier ++ .invoke t c :: later) =
        (interleaved config earlier).run FakeState.access (issuing accesses) (.invoke t c :: later) :=
      List.foldl_append ..
    -- the counter has only grown since the call began
    have hle : (interleaved config earlier).shared.counter ≤
        (interleaved config (earlier ++ .invoke t c :: later)).shared.counter := by
      rw [hsplit]
      exact register_obeys.counter_le_run _ _
    exact Nat.lt_of_lt_of_le hlt hle
  · intro before t _ h slots ⟨k, hk⟩
    unfold interleaved at hk ⊢
    rw [Pool.run_append]
    simp only [Pool.move, hk]
    exact Finmap.lookup_insert _

end Captures

end Vmb.Fake

/-
# Vmb.Ffi.Loading -- function pointers and the library they point into

A process may load `libVmbC` several times and from several threads, and every runtime calls it through
the pointers its `VmbApi` has resolved. Such a pointer may be called only while the library it was found
in is open. `Drop for VmbApi` forgets the library, so the only library that is ever closed is one that
lacks a symbol. `calls_linked` says that this is enough: whatever the threads load, share, use and drop,
every SDK call goes through a pointer that the library has answered for this very function, and the
library has been open ever since.
-/
import Vmb.Ffi.Atomic
import Vmb.Lib.Balance
import Vmb.Lib.Fresh
import Vmb.Lib.Handler
import Vmb.Sdk.Loader

namespace Vmb.Ffi

open Vmb.Lib Vmb.Core Vmb.Sdk

variable {ι σ α : Type}

/-! ## The steps of a process -/

/-- An operation of the dynamic loader, or a step of a runtime over `api`. -/
inductive ProcessCall where
  | loader (c : LoaderCall)
  | runtime (api : LoadedApi) (c : AtomicStep)

@[reducible] def ProcessCall.Resp : ProcessCall → Type
  | .loader c => c.Resp
  | .runtime _ c => c.Resp

@[reducible] def Process : Signature := ⟨ProcessCall, ProcessCall.Resp⟩

/-- Code of the loader. -/
def loading (p : LoaderM α) : Prog Process α :=
  p.through fun c => Prog.call (S := Process) (.loader c) Prog.done

/-- Code of a runtime over `api`. -/
def throughApi (api : LoadedApi) (p : Prog Steps α) : Prog Process α :=
  p.through fun c => Prog.call (S := Process) (.runtime api c) Prog.done

/-- `VmbFfiRuntime::new`. -/
def newRuntime (os : TargetOs) (arch : TargetArch) : LoaderM (Exit (Result LoadedApi)) := do
  match ← load os arch with
  | .panicked m => pure (.panicked m)
  | .returned (.error e) => pure (.returned (.error (.loadFailed e.display)))
  | .returned (.ok api) => pure (.returned (.ok api))

/-- `Drop for VmbApi`: the library is forgotten, not closed. -/
def dropApi (_api : LoadedApi) : Prog Process Unit := pure ()

/-- `real`. A system is known by the API of its runtime. -/
def real (os : TargetOs) (arch : TargetArch) : Prog Process (Exit (Result LoadedApi)) := do
  match ← loading (newRuntime os arch) with
  | .panicked m => pure (.panicked m)
  | .returned (.error e) => pure (.returned (.error e))
  | .returned (.ok api) => do
    match ← throughApi api (ofLifecycle startup) with
    | .error e =>
      -- the runtime is dropped with the arguments of `VmbSystem::startup`
      dropApi api
      pure (.returned (.error e))
    | .ok () => pure (.returned (.ok api))

/-- What a thread may do. -/
inductive ProcessAction where
  | real
  /-- Any code of the adapter. -/
  | use (api : LoadedApi) (p : Prog Steps Unit)
  /-- The drop of a system, and of its API with it. -/
  | drop (api : LoadedApi)

/-- A thread remembers the APIs of the systems it has got from `real`. -/
def ProcessAction.perform (os : TargetOs) (arch : TargetArch) :
    ProcessAction → List LoadedApi → Prog Process (Exit (Result Unit) × List LoadedApi)
  | .real, apis => do
    match ← Ffi.real os arch with
    | .panicked m => pure (.panicked m, apis)
    | .returned (.error e) => pure (.returned (.error e), apis)
    | .returned (.ok api) => pure (.returned (.ok ()), apis ++ [api])
  | .use api p, apis => do
    throughApi api p
    pure (.returned (.ok ()), apis)
  | .drop api, apis => do
    throughApi api (ofLifecycle shutdown)
    dropApi api
    pure (.returned (.ok ()), apis)

/-- Threads of one process. -/
abbrev Processes (σ ι : Type) := Pool Process σ ι (List LoadedApi) (Exit (Result Unit))

/-- A thread has an API from `real`, or shares it with a thread that has it from there. -/
def Shares (P : Processes σ ι) : Move ι ProcessAction → Prop
  | .invoke _ (.use api _) => ∃ u, api ∈ (P.threads u).object
  | .invoke _ (.drop api) => ∃ u, api ∈ (P.threads u).object
  | _ => True

/-! ## What may be called -/

/-- An open of the library. -/
def opened (lib : Library) : Event Process → Nat
  | ⟨.loader (.new _), .ok lib'⟩ => if lib' = lib then 1 else 0
  | _ => 0

/-- A close of the library. -/
def closed (lib : Library) : Event Process → Nat
  | ⟨.loader (.close lib'), _⟩ => if lib' = lib then 1 else 0
  | _ => 0

/-- The library is open: the dynamic loader counts the opens and closes of a handle. -/
def Mapped (lib : Library) (log : List (ι × Event Process)) : Prop :=
  total (closed lib) log < total (opened lib) log

/-- The library answers `ptr` for the symbol. -/
def LooksUp (lib : Library) (name : String) (ptr : FnPtr) (e : ι × Event Process) : Prop :=
  e.2 = ⟨.loader (.get lib name), .ok ptr⟩

/-- The library has answered `ptr`, and has been open ever since. -/
def Linked (lib : Library) (name : String) (ptr : FnPtr) (log : List (ι × Event Process)) : Prop :=
  Lasting (LooksUp lib name ptr) (Mapped lib) log

/-- Only open libraries are used and closed, and an SDK call goes through a pointer that is linked under
the name of the function. -/
def LinkAllowed (pre : List (ι × Event Process)) (e : ι × Event Process) : Prop :=
  match e.2.call with
  | .loader (.get lib _) => Mapped lib pre
  | .loader (.close lib) => Mapped lib pre
  | .runtime api (.sdk c) => ∃ ptr, api.pointer c.symbol = some ptr ∧ Linked api.lib c.symbol ptr pre
  | _ => True

/-! ## What a thread has open -/

/-- The APIs a thread has loaded, and the library it is resolving. -/
structure Linking where
  kept : List LoadedApi := []
  pending : Option (Library × List (String × FnPtr)) := none

namespace Linking

/-- The libraries the thread has open, with what it has found in them. -/
def libraries (v : Linking) : List (Library × List (String × FnPtr)) :=
  v.kept.map (fun api => (api.lib, api.pointers)) ++ v.pending.toList

/-- A symbol is found. With the last one the library is kept. -/
def found (v : Linking) (name : String) (ptr : FnPtr) : Linking :=
  match v.pending with
  | none => v
  | some (lib, pointers) =>
    if h : (pointers ++ [(name, ptr)]).map Prod.fst = symbols then
      { kept := v.kept ++ [⟨lib, pointers ++ [(name, ptr)], h⟩] }
    else { v with pending := some (lib, pointers ++ [(name, ptr)]) }

/-- What an operation of the loader makes of it. -/
def next (v : Linking) : (c : LoaderCall) → c.Resp → Linking
  | .new _, .ok lib => { v with pending := some (lib, []) }
  | .get _ name, .ok ptr => v.found name ptr
  | .close _, _ => { v with pending := none }
  | _, _ => v

end Linking

/-- A thread resolves one library at a time, and closes no other one. -/
def linking : Contract Loader Linking where
  pre v
    | .var _ => True
    | .new _ => v.pending = none
    | .get lib _ => v.pending.map Prod.fst = some lib
    | .close lib => v.pending.map Prod.fst = some lib
  next v c r := v.next c r

/-- And it makes SDK calls through APIs it has loaded or knows. -/
def linkedBy (known : LoadedApi → Prop) : Contract Process Linking where
  pre v
    | .loader c => linking.pre v c
    | .runtime api _ => api ∈ v.kept ∨ known api
  next v
    | .loader c, r => v.next c r
    | .runtime _ _, _ => v

section Threads

variable {known : LoadedApi → Prop} {v v' : Linking} {lib : Library} {name : String} {ptr : FnPtr}
  {pointers : List (String × FnPtr)}

theorem Linking.found_cases (hpending : v.pending = some (lib, pointers)) (name : String) (ptr : FnPtr) :
    (∃ complete, v.found name ptr =
        { kept := v.kept ++ [⟨lib, pointers ++ [(name, ptr)], complete⟩] }) ∨
      (pointers ++ [(name, ptr)]).map Prod.fst ≠ symbols ∧
        v.found name ptr = { v with pending := some (lib, pointers ++ [(name, ptr)]) } := by
  unfold Linking.found
  rw [hpending]
  simp only
  split
  case isTrue h => exact Or.inl ⟨h, rfl⟩
  case isFalse h => exact Or.inr ⟨h, rfl⟩

theorem Linking.libraries_found (hpending : v.pending = some (lib, pointers)) (name : String)
    (ptr : FnPtr) : (v.found name ptr).libraries =
      v.kept.map (fun api => (api.lib, api.pointers)) ++ [(lib, pointers ++ [(name, ptr)])] := by
  rcases v.found_cases hpending name ptr with ⟨complete, hfound⟩ | ⟨-, hfound⟩
  · simp [hfound, Linking.libraries]
  · simp [hfound, Linking.libraries]

theorem Linking.kept_next (v : Linking) (c : LoaderCall) (r : c.Resp) : v.kept ⊆ (v.next c r).kept := by
  unfold Linking.next
  split
  · exact List.Subset.refl _
  · unfold Linking.found
    split
    · exact List.Subset.refl _
    · split
      · exact List.subset_append_left _ _
      · exact List.Subset.refl _
  · exact List.Subset.refl _
  · exact List.Subset.refl _

end Threads

/-! ## Open libraries stay open -/

/-- The libraries of a thread are what it has opened and not closed. -/
def references (known : LoadedApi → Prop) (lib : Library) : Ledger (linkedBy known) where
  gained := opened lib
  lost := closed lib
  held v := (v.libraries.map Prod.fst).count lib
  step := by
    rintro v (c | ⟨api, c⟩) r hpre
    · cases c with
      | var name => rfl
      | new path =>
          rcases r with e | lib'
          · rfl
          · have hnone : v.pending = none := hpre
            simp [linkedBy, Linking.next, Linking.libraries, hnone, opened, closed, List.count_singleton]
      | get lib' name =>
          rcases r with e | ptr
          · rfl
          · obtain ⟨⟨lib', pointers⟩, hpending, rfl⟩ := Option.map_eq_some_iff.mp hpre
            have hsame : ((v.found name ptr).libraries.map Prod.fst).count lib =
                (v.libraries.map Prod.fst).count lib := by
              rw [v.libraries_found hpending]
              simp [Linking.libraries, hpending]
            exact hsame
      | close lib' =>
          obtain ⟨⟨lib', pointers⟩, hpending, rfl⟩ := Option.map_eq_some_iff.mp hpre
          simp [linkedBy, Linking.next, Linking.libraries, hpending, opened, closed, List.count_singleton]
    · rfl

section Logs

variable [DecidableEq ι] {known : LoadedApi → Prop} {log : List (ι × Event Process)} {t : ι}
  {lib : Library} {name : String} {ptr : FnPtr} {pointers : List (String × FnPtr)}

/-- A library that a thread has open is open. -/
theorem mapped_of_mem (hlog : Abides (linkedBy known) {} log)
    (hlib : (lib, pointers) ∈ (Pool.view (linkedBy known) {} log t).libraries) : Mapped lib log := by
  have hheld : 0 < (references known lib).held (Pool.view (linkedBy known) {} log t) :=
    List.count_pos_iff.mpr (List.mem_map_of_mem (f := Prod.fst) hlib)
  exact (references known lib).lost_lt rfl hlog hheld

/-- What is found in a step is new, or has been found before. -/
theorem found_before {v : Linking} {c : ProcessCall} {r : c.Resp} (hpre : (linkedBy known).pre v c)
    (hlib : (lib, pointers) ∈ ((linkedBy known).next v c r).libraries) (hptr : (name, ptr) ∈ pointers) :
    (∃ before, (lib, before) ∈ v.libraries ∧ (name, ptr) ∈ before) ∨
      (⟨c, r⟩ : Event Process) = ⟨.loader (.get lib name), .ok ptr⟩ := by
  have hsame : ((linkedBy known).next v c r).libraries ⊆ v.libraries →
      ∃ before, (lib, before) ∈ v.libraries ∧ (name, ptr) ∈ before := fun h => ⟨pointers, h hlib, hptr⟩
  rcases c with c | ⟨api, c⟩
  · cases c with
    | var name' => exact Or.inl (hsame (List.Subset.refl _))
    | new path =>
        rcases r with e | lib'
        · exact Or.inl (hsame (List.Subset.refl _))
        · -- nothing has been found in the new library
          rcases List.mem_append.mp hlib with hkept | hnew
          · exact Or.inl ⟨pointers, List.mem_append_left _ hkept, hptr⟩
          · cases Option.mem_toList.mp hnew
            exact absurd hptr List.not_mem_nil
    | get lib' name' =>
        rcases r with e | ptr'
        · exact Or.inl (hsame (List.Subset.refl _))
        · obtain ⟨⟨lib', before⟩, hpending, rfl⟩ := Option.map_eq_some_iff.mp hpre
          have hlibraries : (lib, pointers) ∈ (v.found name' ptr').libraries := hlib
          rw [v.libraries_found hpending] at hlibraries
          rcases List.mem_append.mp hlibraries with hkept | hnew
          · exact Or.inl ⟨pointers, List.mem_append_left _ hkept, hptr⟩
          · cases List.mem_singleton.mp hnew
            rcases List.mem_append.mp hptr with hbefore | hlast
            · exact Or.inl ⟨before, List.mem_append_right _ (by simp [hpending]), hbefore⟩
            · cases List.mem_singleton.mp hlast
              exact Or.inr rfl
    | close lib' =>
        rcases List.mem_append.mp hlib with hkept | hnew
        · exact Or.inl ⟨pointers, List.mem_append_left _ hkept, hptr⟩
        · cases Option.mem_toList.mp hnew
  · exact Or.inl (hsame (List.Subset.refl _))

/-- **What a thread has found is linked.** -/
theorem linked_of_mem (hlog : Abides (linkedBy known) {} log)
    (hlib : (lib, pointers) ∈ (Pool.view (linkedBy known) {} log t).libraries)
    (hptr : (name, ptr) ∈ pointers) : Linked lib name ptr log := by
  induction log using List.reverseRecOn generalizing pointers with
  | nil => simp [Pool.view, Linking.libraries] at hlib
  | append_singleton log e ih =>
      have hmapped : Mapped lib (log ++ [e]) := mapped_of_mem hlog hlib
      obtain ⟨u, c, r⟩ := e
      obtain ⟨hbefore, hpre⟩ := conforms_append.mp hlog
      rw [Pool.view_append] at hlib
      rcases eq_or_ne t u with rfl | hne
      · rw [Function.update_self] at hlib
        rcases found_before hpre hlib hptr with ⟨before, hmem, hptr'⟩ | hanswer
        · exact (ih hbefore hmem hptr').append hmapped
        · exact Lasting.start hanswer hmapped
      · rw [Function.update_of_ne hne] at hlib
        exact (ih hbefore hlib hptr).append hmapped

/-- What is kept is kept for good. -/
theorem kept_append (log : List (ι × Event Process)) (e : ι × Event Process) (u : ι) :
    (Pool.view (linkedBy known) {} log u).kept ⊆ (Pool.view (linkedBy known) {} (log ++ [e]) u).kept := by
  obtain ⟨t, c, r⟩ := e
  rw [Pool.view_append]
  rcases eq_or_ne u t with rfl | hne
  · rw [Function.update_self]
    rcases c with c | ⟨api, c⟩
    · exact Linking.kept_next _ c r
    · exact List.Subset.refl _
  · rw [Function.update_of_ne hne]
    exact List.Subset.refl _

end Logs

/-! ## The code keeps the contract -/

section Code

variable {known : LoadedApi → Prop} {v : Linking} {lib : Library} {before : List (String × FnPtr)}
  {names : List String}

/-- What `resolve` makes of a thread that has found `before`. -/
def HasResolved (v : Linking) (lib : Library) (before : List (String × FnPtr)) :
    Except VmbLoadError {found : List (String × FnPtr) // found.map Prod.fst = names} → Linking → Prop
  | .error _, v' => v'.kept = v.kept ∧ v'.pending.map Prod.fst = some lib
  | .ok found, v' => ∃ complete, v' = { kept := v.kept ++ [⟨lib, before ++ found.1, complete⟩] }

theorem resolve_meets (path : String) (hnames : names ≠ [])
    (hsymbols : before.map Prod.fst ++ names = symbols) (hpending : v.pending = some (lib, before)) :
    (resolve lib path names).Meets linking (HasResolved v lib before) v := by
  induction names generalizing v before with
  | nil => exact absurd rfl hnames
  | cons name names ih =>
      have hlib : v.pending.map Prod.fst = some lib := by rw [hpending, Option.map_some]
      refine ⟨hlib, fun r => ?_⟩
      rcases r with e | ptr
      · exact ⟨rfl, hlib⟩
      · rcases v.found_cases hpending name ptr with ⟨complete, hfound⟩ | ⟨hmore, hfound⟩
        · -- this was the last symbol
          have hnone : names = [] := by
            rw [← hsymbols] at complete
            simpa using complete
          subst hnone
          exact ⟨complete, hfound⟩
        · have hnames' : names ≠ [] := by
            rintro rfl
            exact hmore (by simpa using hsymbols)
          have hsymbols' : (before ++ [(name, ptr)]).map Prod.fst ++ names = symbols := by
            simpa using hsymbols
          have hrest : (resolve lib path names).Meets linking
              (HasResolved (v.found name ptr) lib (before ++ [(name, ptr)])) (v.found name ptr) :=
            ih hnames' hsymbols' (by rw [hfound])
          refine (Prog.meets_bind (p := resolve lib path names)).mpr (hrest.mono ?_)
          rintro (e | found) v' hv'
          · exact ⟨by rw [hv'.1, hfound], hv'.2⟩
          · obtain ⟨complete, rfl⟩ := hv'
            exact ⟨by simpa using complete, by simp [hfound]⟩

/-- What `open_first` makes of a thread that has nothing to resolve. -/
def Opened (v : Linking) : Exit (Except VmbLoadError (String × Library)) → Linking → Prop
  | .returned (.ok (_, lib)), v' => v' = { v with pending := some (lib, []) }
  | _, v' => v' = v

theorem openFirst_meets (lastErr : Option (String × String)) (candidates : List String)
    (hidle : v.pending = none) : (openFirst lastErr candidates).Meets linking (Opened v) v := by
  induction candidates generalizing lastErr with
  | nil => cases lastErr <;> exact rfl
  | cons path candidates ih =>
      refine ⟨hidle, fun r => ?_⟩
      rcases r with e | lib
      · exact ih (some (path, e))
      · exact rfl

/-- What loading makes of a thread. -/
structure Loads {ε : Type} (v : Linking) (r : Exit (Except ε LoadedApi)) (v' : Linking) : Prop where
  idle : v'.pending = none
  kept : v.kept ⊆ v'.kept
  loaded : ∀ api, r = .returned (.ok api) → api ∈ v'.kept

theorem fromLibrary_meets (path : String) (lib : Library) :
    (fromLibrary path lib).Meets linking (fun r v' => Loads v (.returned r) v')
      { v with pending := some (lib, []) } := by
  refine Prog.meets_bind.mpr ((resolve_meets path (by simp [symbols]) rfl rfl).mono ?_)
  rintro (e | ⟨found, complete⟩) v' hv'
  · refine ⟨hv'.2, fun _ => ⟨rfl, ?_, fun api hapi => by cases hapi⟩⟩
    exact fun api hapi => hv'.1 ▸ hapi
  · obtain ⟨-, rfl⟩ := hv'
    refine ⟨rfl, List.subset_append_left _ _, fun api hapi => ?_⟩
    cases hapi
    exact List.mem_append_right _ (List.mem_singleton.mpr rfl)

theorem load_meets (os : TargetOs) (arch : TargetArch) (hidle : v.pending = none) :
    (load os arch).Meets linking (Loads v) v := by
  refine ⟨trivial, fun home => ?_⟩
  have hopen := openFirst_meets none (candidatePaths os arch home) hidle
  refine (Prog.meets_bind (p := openFirst none (candidatePaths os arch home))).mpr (hopen.mono ?_)
  rintro (⟨e | ⟨path, lib⟩⟩ | m) v' hv'
  · cases hv'
    exact ⟨hidle, List.Subset.refl _, fun api hapi => by cases hapi⟩
  · cases hv'
    exact Prog.meets_bind.mpr (fromLibrary_meets path lib)
  · cases hv'
    exact ⟨hidle, List.Subset.refl _, fun api hapi => by cases hapi⟩

theorem newRuntime_meets (os : TargetOs) (arch : TargetArch) (hidle : v.pending = none) :
    (newRuntime os arch).Meets linking (Loads v) v := by
  refine Prog.meets_bind.mpr ((load_meets os arch hidle).mono ?_)
  rintro (⟨e | api⟩ | m) v' hv'
  · exact ⟨hv'.idle, hv'.kept, fun api hapi => by cases hapi⟩
  · exact ⟨hv'.idle, hv'.kept, fun api' hapi => by cases hapi; exact hv'.loaded api rfl⟩
  · exact ⟨hv'.idle, hv'.kept, fun api hapi => by cases hapi⟩

/-- The loader's code in the process. -/
theorem loading_meets {Q : α → Linking → Prop} {p : LoaderM α} (h : p.Meets linking Q v) :
    (loading p).Meets (linkedBy known) Q v := by
  induction p generalizing v with
  | done a => exact h
  | call c k ih => exact ⟨h.1, fun r => ih r (h.2 r)⟩

/-- A runtime uses its own API only. -/
theorem throughApi_meets {api : LoadedApi} (hapi : api ∈ v.kept ∨ known api) (p : Prog Steps α) :
    (throughApi api p).Meets (linkedBy known) (fun _ v' => v' = v) v := by
  induction p with
  | done a => rfl
  | call c k ih => exact ⟨hapi, ih⟩

theorem real_meets (os : TargetOs) (arch : TargetArch) (hidle : v.pending = none) :
    (real os arch).Meets (linkedBy known) (Loads v) v := by
  refine Prog.meets_bind.mpr ((loading_meets (newRuntime_meets os arch hidle)).mono ?_)
  rintro (⟨e | api⟩ | m) v' hv'
  · exact hv'
  · have hapi : api ∈ v'.kept := hv'.loaded api rfl
    refine Prog.meets_bind.mpr ((throughApi_meets (Or.inl hapi) _).mono ?_)
    rintro (e | ⟨⟩) _ rfl
    · exact ⟨hv'.idle, hv'.kept, fun api hapi => by cases hapi⟩
    · exact hv'
  · exact hv'

/-- Between operations a thread resolves nothing, and the APIs it has are open for good. -/
structure Rests (apis : List LoadedApi) (v : Linking) : Prop where
  idle : v.pending = none
  kept : apis ⊆ v.kept

/-- The API of an action that needs one. -/
def ProcessAction.api : ProcessAction → Option LoadedApi
  | .real => none
  | .use api _ => some api
  | .drop api => some api

theorem perform_meets (os : TargetOs) (arch : TargetArch) (a : ProcessAction) {apis : List LoadedApi}
    (hrests : Rests apis v) (hknown : ∀ api ∈ a.api, known api) :
    (a.perform os arch apis).Meets (linkedBy known) (fun r v' => Rests r.2 v') v := by
  cases a with
  | real =>
      refine Prog.meets_bind.mpr ((real_meets os arch hrests.idle).mono ?_)
      rintro (⟨e | api⟩ | m) v' hv'
      · exact ⟨hv'.idle, List.Subset.trans hrests.kept hv'.kept⟩
      · refine ⟨hv'.idle, List.append_subset.mpr ⟨List.Subset.trans hrests.kept hv'.kept, ?_⟩⟩
        simpa using hv'.loaded api rfl
      · exact ⟨hv'.idle, List.Subset.trans hrests.kept hv'.kept⟩
  | use api p =>
      refine Prog.meets_bind.mpr ((throughApi_meets (Or.inr (hknown api rfl)) p).mono ?_)
      rintro _ _ rfl
      exact hrests
  | drop api =>
      refine Prog.meets_bind.mpr ((throughApi_meets (Or.inr (hknown api rfl)) _).mono ?_)
      rintro _ _ rfl
      exact hrests

end Code

/-! ## Every interleaving -/

section Runs

variable [DecidableEq ι] {P : Processes σ ι} {m : Machine Process σ} {os : TargetOs} {arch : TargetArch}

/-- The APIs a thread has loaded, by what it has done. -/
def keptBy (log : List (ι × Event Process)) (u : ι) : List LoadedApi :=
  (Pool.view (linkedBy fun _ => True) {} log u).kept

/-- Some thread has loaded the API. -/
def Known (log : List (ι × Event Process)) (api : LoadedApi) : Prop := ∃ u, api ∈ keptBy log u

theorem keptBy_append (log : List (ι × Event Process)) (e : ι × Event Process) (u : ι) :
    keptBy log u ⊆ keptBy (log ++ [e]) u := kept_append log e u

/-- Every thread keeps the contract, has loaded the APIs it has, and all calls so far were allowed. -/
structure ProcessInv (P : Processes σ ι) : Prop where
  sound : P.Sound (linkedBy (Known P.log)) {} (fun _ _ => True) Rests fun _ => True
  owned : ∀ u, (P.threads u).object ⊆ keptBy P.log u
  abides : Abides (linkedBy fun _ => True) {} P.log
  allowed : Conforms LinkAllowed P.log

theorem ProcessInv.init (s : σ) : ProcessInv (Pool.init s [] : Processes σ ι) where
  sound := Pool.sound_init ⟨rfl, List.nil_subset _⟩
  owned _ := List.nil_subset _
  abides := conforms_nil
  allowed := conforms_nil

theorem keptBy_move (mv : Move ι ProcessAction) (u : ι) :
    keptBy P.log u ⊆ keptBy (P.move m (ProcessAction.perform os arch) mv).log u := by
  rcases P.move_cases m (ProcessAction.perform os arch) mv with ⟨-, hlog⟩ | ⟨t, c, -, -, -, hlog⟩
  · rw [hlog]
    exact List.Subset.refl _
  · rw [hlog]
    exact keptBy_append _ _ u

/-- What a thread has loaded is linked. -/
theorem linked_of_kept {log : List (ι × Event Process)} (hlog : Abides (linkedBy fun _ => True) {} log)
    {u : ι} {api : LoadedApi} (hapi : api ∈ keptBy log u) {name : String} {ptr : FnPtr}
    (hptr : (name, ptr) ∈ api.pointers) : Linked api.lib name ptr log :=
  linked_of_mem hlog (List.mem_append_left _ (List.mem_map_of_mem hapi)) hptr

/-- A thread makes only calls that are allowed. -/
theorem ProcessInv.next (h : ProcessInv P) {t : ι} {c : ProcessCall} (hcalls : P.Calls t c) (r : c.Resp) :
    LinkAllowed P.log (t, ⟨c, r⟩) := by
  have hpre := h.sound.pre hcalls
  have hpending : ∀ lib, (Pool.view (linkedBy fun _ => True) {} P.log t).pending.map Prod.fst = some lib →
      Mapped lib P.log := by
    intro lib hlib
    obtain ⟨⟨lib, pointers⟩, hmem, rfl⟩ := Option.map_eq_some_iff.mp hlib
    exact mapped_of_mem h.abides (List.mem_append_right _ (Option.mem_toList.mpr hmem))
  rcases c with (_ | _ | ⟨lib, _⟩ | ⟨lib⟩) | ⟨api, c | c⟩
  · trivial
  · trivial
  · exact hpending lib hpre
  · exact hpending lib hpre
  · have hknown : Known P.log api := by
      rcases hpre with hown | hknown
      · exact ⟨t, hown⟩
      · exact hknown
    obtain ⟨u, hu⟩ := hknown
    obtain ⟨ptr, hptr, hmem⟩ := api.pointer_of_mem c.symbol_mem
    exact ⟨ptr, hptr, linked_of_kept h.abides hu hmem⟩
  · trivial

/-- **Every move keeps it**, if the threads use only APIs they have or share. -/
theorem ProcessInv.move (h : ProcessInv P) (mv : Move ι ProcessAction) (hshares : Shares P mv) :
    ProcessInv (P.move m (ProcessAction.perform os arch) mv) := by
  have hmoved : (P.move m (ProcessAction.perform os arch) mv).Sound (linkedBy (Known P.log)) {}
      (fun _ _ => True) Rests fun _ => True := by
    refine h.sound.move mv (fun t a apis v hmv hrests => ?_) fun _ _ _ _ => trivial
    subst hmv
    have hknown : ∀ api ∈ a.api, Known P.log api := by
      intro api hapi
      cases a with
      | real => cases hapi
      | use api p =>
          cases hapi
          exact hshares.imp fun u hu => h.owned u hu
      | drop api =>
          cases hapi
          exact hshares.imp fun u hu => h.owned u hu
    exact ((perform_meets os arch a hrests hknown).mono fun r v' hr => ⟨hr, trivial⟩).ensures
  have hsound : (P.move m (ProcessAction.perform os arch) mv).Sound
      (linkedBy (Known (P.move m (ProcessAction.perform os arch) mv).log)) {} (fun _ _ => True) Rests
      fun _ => True := by
    refine hmoved.weaken fun v c hpre => ?_
    rcases c with c | ⟨api, c⟩
    · exact hpre
    · exact hpre.imp_right (Exists.imp fun u hu => keptBy_move mv u hu)
  refine ⟨hsound, fun u => ?_, ?_, ?_⟩
  · rcases P.object_move (ProcessAction.perform os arch) mv u with hobject | hnone
    · rw [hobject]
      exact List.Subset.trans (h.owned u) (keptBy_move mv u)
    · exact (hsound.resting u hnone).kept
  · have hsound' : P.Sound (linkedBy fun _ => True) {} (fun _ _ => True) Rests fun _ => True := by
      refine h.sound.weaken fun v c hpre => ?_
      rcases c with c | ⟨api, c⟩
      · exact hpre
      · exact hpre.imp_right fun _ => trivial
    exact h.abides.move hsound' m _ mv
  · rcases P.move_cases m (ProcessAction.perform os arch) mv with ⟨-, hlog⟩ | ⟨t, c, -, hcalls, -, hlog⟩
    · rw [hlog]
      exact h.allowed
    · rw [hlog]
      exact conforms_append.mpr ⟨h.allowed, h.next hcalls _⟩

/-- The threads of a process in an environment. -/
def process (m : Machine Process σ) (os : TargetOs) (arch : TargetArch) (s : σ)
    (moves : List (Move ι ProcessAction)) : Processes σ ι :=
  (Pool.init s []).run m (ProcessAction.perform os arch) moves

/-- **No call dangles.** Let any threads load the library, share its APIs, use them in any way and drop
them, with every step answered in any way. Then libraries are used and closed only while they are open,
every SDK call goes through a pointer that an open library has answered for the called function, and
the pointers of every API that has ever been loaded stay good. -/
theorem calls_linked (m : Machine Process σ) (os : TargetOs) (arch : TargetArch) (s : σ)
    (moves : List (Move ι ProcessAction))
    (hshares : (Pool.init s [] : Processes σ ι).Along m (ProcessAction.perform os arch) Shares moves) :
    Conforms LinkAllowed (process m os arch s moves).log ∧
      ∀ u, ∀ api ∈ ((process m os arch s moves).threads u).object, ∀ name ptr,
        (name, ptr) ∈ api.pointers → Linked api.lib name ptr (process m os arch s moves).log := by
  have hinv : ProcessInv (process m os arch s moves) :=
    Pool.run_invariant ProcessInv Shares (fun _ mv h hok => h.move mv hok) _ moves (ProcessInv.init s)
      hshares
  refine ⟨hinv.allowed, fun u api hapi name ptr hptr => ?_⟩
  exact linked_of_kept hinv.abides (hinv.owned u hapi) hptr

end Runs

/-- A process with `libVmbC.so` on the search path. -/
def mockProcess : Machine Process (FfiState × Nat) := fun s c =>
  match c with
  | .loader (.var _) => (none, s)
  | .loader (.new _) => (.ok 7, s)
  | .loader (.get _ _) => (.ok 4096, s)
  | .loader (.close _) => ((), s)
  | .runtime _ c => stepMachine mockApi s c

/-- What `load` returns there. -/
def mockLoaded : LoadedApi :=
  ⟨7, symbols.map fun name => (name, 4096), List.map_map.trans (List.map_id symbols)⟩

/-- List the cameras twice. -/
def listTwice : Prog Steps Unit := do
  let _ ← Atomic.listCameras
  let _ ← Atomic.listCameras
  pure ()

/-- A thread starts a system and drops it while another thread lists cameras. -/
def dropWhileListing : List (Move Bool ProcessAction) :=
  .invoke false .real :: List.replicate 61 (.step false) ++
    [.invoke true (.use mockLoaded listTwice), .step true, .invoke false (.drop mockLoaded), .step false,
      .step false, .step false, .step true, .step true, .step true]

instance decidableShares (P : Processes σ Bool) : ∀ mv, Decidable (Shares P mv)
  | .invoke _ (.use api _) => inferInstanceAs (Decidable (∃ u, api ∈ (P.threads u).object))
  | .invoke _ (.drop api) => inferInstanceAs (Decidable (∃ u, api ∈ (P.threads u).object))
  | .invoke _ .real => isTrue trivial
  | .step _ => isTrue trivial

theorem calls_linked_dropWhileListing :
    ((process mockProcess .otherUnix .x86_64 (FfiState.new, 5) dropWhileListing).threads false).object =
        [mockLoaded] ∧
      Conforms LinkAllowed
        (process mockProcess .otherUnix .x86_64 (FfiState.new, 5) dropWhileListing).log :=
  ⟨by decide +kernel,
    (calls_linked mockProcess .otherUnix .x86_64 (FfiState.new, 5) dropWhileListing (by decide +kernel)).1⟩

end Vmb.Ffi

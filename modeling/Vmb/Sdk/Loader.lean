/-
# Vmb.Sdk.Loader -- how `libVmbC` is loaded

`VmbApi::load` tries the candidate paths in order, opens the first library that opens at all, and
resolves every function of the API in it. Opening and closing libraries and looking symbols up are the
calls of a signature, so the loader is a program that can be run in any environment. `load_runs` lists
its runs: it has three ways to end, and in each of them it is known which paths have been tried, which
symbols have been looked up, and whether the library has been closed.

The path syntax is that of Unix; the Windows build is left out.
-/
import Vmb.Core.Types
import Vmb.Sdk.Api

namespace Vmb.Sdk

open Vmb.Lib Vmb.Core

/-! ## The dynamic loader -/

/-- What `dlopen` returns. Opening a library twice may return the same handle. -/
abbrev Library := Nat

/-- A function pointer. -/
abbrev FnPtr := Nat

/-- An operation of the loader. -/
inductive LoaderCall where
  /-- `env::var`: a variable that is set and is a string. -/
  | var (name : String)
  /-- `libloading::Library::new`. -/
  | new (path : String)
  /-- `Library::get`. The source appends the NUL byte. -/
  | get (lib : Library) (symbol : String)
  /-- The drop of a `Library`: `dlclose`. -/
  | close (lib : Library)
  deriving DecidableEq

/-- Answers; an error is given by its text. -/
@[reducible] def LoaderCall.Resp : LoaderCall → Type
  | .var _ => Option String
  | .new _ => Except String Library
  | .get _ _ => Except String FnPtr
  | .close _ => Unit

@[reducible] def Loader : Signature := ⟨LoaderCall, LoaderCall.Resp⟩

/-- Code that loads libraries. -/
abbrev LoaderM (α : Type) := Prog Loader α

/-- Perform an operation of the loader. -/
def dl (c : LoaderCall) : LoaderM c.Resp := Prog.call (S := Loader) c Prog.done

/-- The ways to fail to load the API. -/
inductive VmbLoadError where
  | libraryOpen (path source : String)
  | symbolResolution (symbol path source : String)
  deriving DecidableEq

/-- `Display for VmbLoadError`. -/
def VmbLoadError.display : VmbLoadError → String
  | .libraryOpen path source => s!"failed to open Vimba X shared library at {path}: {source}"
  | .symbolResolution symbol path source =>
    s!"failed to resolve Vimba X symbol {symbol} in {path}: {source}"

/-! ## Candidate paths -/

/-- `target_os`, for the Unix targets. -/
inductive TargetOs where
  | macos
  | otherUnix
  deriving DecidableEq

/-- `target_arch`. -/
inductive TargetArch where
  | x86_64
  | aarch64
  | arm
  | other
  deriving DecidableEq

/-- `LIB_FILE_NAME`. -/
def libFileName : TargetOs → String
  | .macos => "libVmbC.dylib"
  | .otherUnix => "libVmbC.so"

/-- `arch_dir`. -/
def archDir : TargetArch → String
  | .x86_64 => "x86_64"
  | .aarch64 => "arm64"
  | .arm => "arm"
  | .other => ""

/-- `PathBuf::join` with a relative path. -/
def join (base path : String) : String :=
  if base = "" ∨ base.toList.getLast? = some '/' then base ++ path else base ++ "/" ++ path

/-- `candidate_paths`, with the value of `VIMBA_X_HOME`. -/
def candidatePaths (os : TargetOs) (arch : TargetArch) (home : Option String) : List String :=
  let file := libFileName os
  let ofHome :=
    match home with
    | none => []
    | some home =>
      let lib := join (join home "api") "lib"
      let archPath := if archDir arch ≠ "" then [join (join lib (archDir arch)) file] else []
      let framework := if os = .macos then [join (join home "VmbC.framework") "VmbC"] else []
      archPath ++ [join lib file] ++ framework
  let framework := if os = .macos then ["/Library/Frameworks/VmbC.framework/VmbC"] else []
  ofHome ++ framework ++ [file]

/-! ## Loading -/

/-- `open_first`. `lastErr` is the last failure so far. -/
def openFirst (lastErr : Option (String × String)) :
    List String → LoaderM (Exit (Except VmbLoadError (String × Library)))
  | [] =>
    match lastErr with
    | none => pure (.panicked "candidate_paths() never returns an empty Vec")
    | some (path, source) => pure (.returned (.error (.libraryOpen path source)))
  | path :: candidates => do
    match ← dl (.new path) with
    | .ok lib => pure (.returned (.ok (path, lib)))
    | .error e => openFirst (some (path, e)) candidates

/-- The functions of the API, in the order they are resolved in. -/
def symbols : List String :=
  ["VmbVersionQuery", "VmbStartup", "VmbShutdown", "VmbCamerasList", "VmbCameraInfoQueryByHandle",
    "VmbCameraInfoQuery", "VmbCameraOpen", "VmbCameraClose", "VmbFeaturesList",
    "VmbFeatureInfoQuery", "VmbFeatureListSelected", "VmbFeatureAccessQuery", "VmbFeatureIntGet",
    "VmbFeatureIntSet", "VmbFeatureIntRangeQuery", "VmbFeatureIntIncrementQuery",
    "VmbFeatureIntValidValueSetQuery", "VmbFeatureFloatGet", "VmbFeatureFloatSet",
    "VmbFeatureFloatRangeQuery", "VmbFeatureFloatIncrementQuery", "VmbFeatureEnumGet",
    "VmbFeatureEnumSet", "VmbFeatureEnumRangeQuery", "VmbFeatureEnumIsAvailable",
    "VmbFeatureEnumAsInt", "VmbFeatureEnumAsString", "VmbFeatureEnumEntryGet",
    "VmbFeatureStringGet", "VmbFeatureStringSet", "VmbFeatureStringMaxlengthQuery",
    "VmbFeatureBoolGet", "VmbFeatureBoolSet", "VmbFeatureCommandRun", "VmbFeatureCommandIsDone",
    "VmbFeatureRawGet", "VmbFeatureRawSet", "VmbFeatureRawLengthQuery",
    "VmbFeatureInvalidationRegister", "VmbFeatureInvalidationUnregister", "VmbPayloadSizeGet",
    "VmbFrameAnnounce", "VmbFrameRevoke", "VmbFrameRevokeAll", "VmbCaptureStart", "VmbCaptureEnd",
    "VmbCaptureFrameQueue", "VmbCaptureFrameWait", "VmbCaptureQueueFlush", "VmbTransportLayersList",
    "VmbInterfacesList", "VmbMemoryRead", "VmbMemoryWrite", "VmbSettingsSave", "VmbSettingsLoad",
    "VmbChunkDataAccess"]

/-- `VmbApi`: the library, and a pointer for every function. -/
structure LoadedApi where
  lib : Library
  pointers : List (String × FnPtr)
  complete : pointers.map Prod.fst = symbols
  deriving DecidableEq

/-- The function an SDK call calls. -/
def SdkCall.symbol : SdkCall → String
  | .vmbStartup => "VmbStartup"
  | .vmbShutdown => "VmbShutdown"
  | .vmbCamerasList _ => "VmbCamerasList"
  | .vmbCameraOpen _ _ => "VmbCameraOpen"
  | .vmbCameraClose _ => "VmbCameraClose"
  | .vmbSettingsLoad _ _ => "VmbSettingsLoad"
  | .vmbFeatureCommandRun _ _ => "VmbFeatureCommandRun"
  | .vmbPayloadSizeGet _ => "VmbPayloadSizeGet"
  | .vmbFrameAnnounce _ _ => "VmbFrameAnnounce"
  | .vmbFrameRevokeAll _ => "VmbFrameRevokeAll"
  | .vmbCaptureStart _ => "VmbCaptureStart"
  | .vmbCaptureEnd _ => "VmbCaptureEnd"
  | .vmbCaptureQueueFlush _ => "VmbCaptureQueueFlush"
  | .vmbCaptureFrameQueue _ _ _ => "VmbCaptureFrameQueue"
  | .vmbFeatureInvalidationRegister _ _ _ _ => "VmbFeatureInvalidationRegister"
  | .vmbFeatureInvalidationUnregister _ _ _ => "VmbFeatureInvalidationUnregister"
  | .vmbFeatureStringGet _ _ _ => "VmbFeatureStringGet"
  | .vmbFeatureEnumGet _ _ => "VmbFeatureEnumGet"

theorem SdkCall.symbol_mem (c : SdkCall) : c.symbol ∈ symbols := by
  cases c <;> simp [SdkCall.symbol, symbols]

/-- The getters: the pointer an API has for a function. -/
def LoadedApi.pointer (api : LoadedApi) (symbol : String) : Option FnPtr := api.pointers.lookup symbol

theorem LoadedApi.pointer_of_mem (api : LoadedApi) {symbol : String} (h : symbol ∈ symbols) :
    ∃ ptr, api.pointer symbol = some ptr ∧ (symbol, ptr) ∈ api.pointers := by
  rw [← api.complete] at h
  unfold LoadedApi.pointer
  rcases hlookup : api.pointers.lookup symbol with - | ptr
  · obtain ⟨⟨name, ptr⟩, hmem, rfl⟩ := List.mem_map.mp h
    exact absurd (List.lookup_eq_none_iff.mp hlookup _ hmem) (by simp)
  · obtain ⟨l₁, l₂, hpointers, -⟩ := List.lookup_eq_some_iff.mp hlookup
    exact ⟨ptr, rfl, by simp [hpointers]⟩

/-- The look-ups of `from_library`; the first symbol that is missing ends them. -/
def resolve (lib : Library) (path : String) :
    (names : List String) →
      LoaderM (Except VmbLoadError {found : List (String × FnPtr) // found.map Prod.fst = names})
  | [] => pure (.ok ⟨[], rfl⟩)
  | name :: names => do
    match ← dl (.get lib name) with
    | .error source => pure (.error (.symbolResolution name path source))
    | .ok ptr =>
      let rest ← resolve lib path names
      pure (rest.map fun found => ⟨(name, ptr) :: found.1, congrArg _ found.2⟩)

/-- `VmbApi::from_library`. -/
def fromLibrary (path : String) (lib : Library) : LoaderM (Except VmbLoadError LoadedApi) := do
  match ← resolve lib path symbols with
  | .error e =>
    -- the library is dropped with the arguments
    dl (.close lib)
    pure (.error e)
  | .ok ⟨found, h⟩ => pure (.ok ⟨lib, found, h⟩)

/-- `VmbApi::load`. -/
def load (os : TargetOs) (arch : TargetArch) : LoaderM (Exit (Except VmbLoadError LoadedApi)) := do
  let home ← dl (.var "VIMBA_X_HOME")
  match ← openFirst none (candidatePaths os arch home) with
  | .panicked m => pure (.panicked m)
  | .returned (.error e) => pure (.returned (.error e))
  | .returned (.ok (path, lib)) => do
    let api ← fromLibrary path lib
    pure (.returned api)

/-! ## The runs of the loader -/

/-- Attempts to open a library that fail, each with its error. -/
def refused (tried : List (String × String)) : List (Event Loader) :=
  tried.map fun x => ⟨.new x.1, .error x.2⟩

/-- Look-ups that find their symbol. -/
def answered (lib : Library) (found : List (String × FnPtr)) : List (Event Loader) :=
  found.map fun x => ⟨.get lib x.1, .ok x.2⟩

/-- The runs of `load`: the operations it performs with their answers, and what it returns. -/
inductive LoadRun (os : TargetOs) (arch : TargetArch) :
    List (Event Loader) → Exit (Except VmbLoadError LoadedApi) → Prop where
  /-- No candidate opens. The error names the last one, which is the bare file name. -/
  | notFound (home : Option String) (tried : List (String × String)) (source : String)
      (all : candidatePaths os arch home = tried.map Prod.fst ++ [libFileName os]) :
      LoadRun os arch (⟨.var "VIMBA_X_HOME", home⟩ :: refused (tried ++ [(libFileName os, source)]))
        (.returned (.error (.libraryOpen (libFileName os) source)))
  /-- The first candidate that opens lacks a symbol. It is closed, and no other one is tried. -/
  | incomplete (home : Option String) (tried : List (String × String)) (path : String)
      (later : List String) (lib : Library) (found : List (String × FnPtr)) (name : String)
      (names : List String) (source : String)
      (candidates : candidatePaths os arch home = tried.map Prod.fst ++ path :: later)
      (missing : symbols = found.map Prod.fst ++ name :: names) :
      LoadRun os arch (⟨.var "VIMBA_X_HOME", home⟩ :: (refused tried ++ ⟨.new path, .ok lib⟩ ::
          (answered lib found ++ [⟨.get lib name, .error source⟩, ⟨.close lib, ()⟩])))
        (.returned (.error (.symbolResolution name path source)))
  /-- The first candidate that opens has all symbols, and stays open. -/
  | loaded (home : Option String) (tried : List (String × String)) (path : String)
      (later : List String) (api : LoadedApi)
      (candidates : candidatePaths os arch home = tried.map Prod.fst ++ path :: later) :
      LoadRun os arch (⟨.var "VIMBA_X_HOME", home⟩ :: (refused tried ++ ⟨.new path, .ok api.lib⟩ ::
          answered api.lib api.pointers))
        (.returned (.ok api))

/-- What `open_first` returns when every candidate is refused. -/
def gaveUp : Option (String × String) → Exit (Except VmbLoadError (String × Library))
  | none => .panicked "candidate_paths() never returns an empty Vec"
  | some (path, source) => .returned (.error (.libraryOpen path source))

theorem openFirst_runs (last : Option (String × String)) (candidates : List String)
    {t : List (Event Loader)} {b : Exit (Except VmbLoadError (String × Library))} :
    (openFirst last candidates).Runs t b ↔
      (∃ tried, candidates = tried.map Prod.fst ∧ t = refused tried ∧
        b = gaveUp (tried.getLast?.or last)) ∨
      ∃ tried path later lib, candidates = tried.map Prod.fst ++ path :: later ∧
        t = refused tried ++ [⟨.new path, .ok lib⟩] ∧ b = .returned (.ok (path, lib)) := by
  induction candidates generalizing last t with
  | nil =>
      have hruns : (openFirst last []).Runs t b ↔ t = [] ∧ b = gaveUp last := by
        cases last <;> exact Iff.rfl
      rw [hruns]
      constructor
      · rintro ⟨rfl, rfl⟩
        exact Or.inl ⟨[], rfl, rfl, rfl⟩
      · rintro (⟨tried, htried, rfl, rfl⟩ | ⟨tried, path, later, lib, hcandidates, -⟩)
        · obtain rfl := List.map_eq_nil_iff.mp htried.symm
          exact ⟨rfl, rfl⟩
        · simp at hcandidates
  | cons path candidates ih =>
      -- a failure is the last one of the rest, unless another one follows
      have hlast : ∀ (e : String) (tried : List (String × String)),
          tried.getLast?.or (some (path, e)) = ((path, e) :: tried).getLast?.or last := by
        intro e tried
        rw [List.getLast?_cons]
        cases tried.getLast? <;> rfl
      constructor
      · rintro ⟨lib | lib, t', rfl, hruns⟩
        · rcases (ih (some (path, lib))).mp hruns with
            ⟨tried, rfl, rfl, rfl⟩ | ⟨tried, path', later, lib', rfl, rfl, rfl⟩
          · exact Or.inl ⟨(path, lib) :: tried, rfl, rfl, congrArg gaveUp (hlast lib tried)⟩
          · exact Or.inr ⟨(path, lib) :: tried, path', later, lib', rfl, rfl, rfl⟩
        · obtain ⟨rfl, rfl⟩ := hruns
          exact Or.inr ⟨[], path, candidates, lib, rfl, rfl, rfl⟩
      · rintro (⟨- | ⟨⟨path', e⟩, tried⟩, htried, rfl, rfl⟩ |
          ⟨- | ⟨⟨path', e⟩, tried⟩, path'', later, lib, hcandidates, rfl, rfl⟩)
        · cases htried
        · cases htried
          refine ⟨.error e, _, rfl, (ih _).mpr (Or.inl ⟨tried, rfl, rfl, ?_⟩)⟩
          exact congrArg gaveUp (hlast e tried).symm
        · cases hcandidates
          exact ⟨.ok lib, [], rfl, rfl, rfl⟩
        · cases hcandidates
          exact ⟨.error e, _, rfl, (ih _).mpr (Or.inr ⟨tried, path'', later, lib, rfl, rfl, rfl⟩)⟩

theorem resolve_runs (lib : Library) (path : String) (names : List String) {t : List (Event Loader)}
    {b : Except VmbLoadError {found : List (String × FnPtr) // found.map Prod.fst = names}} :
    (resolve lib path names).Runs t b ↔
      (∃ found, t = answered lib found.1 ∧ b = .ok found) ∨
      ∃ found name later source, names = found.map Prod.fst ++ name :: later ∧
        t = answered lib found ++ [⟨.get lib name, .error source⟩] ∧
        b = .error (.symbolResolution name path source) := by
  induction names generalizing t with
  | nil =>
      constructor
      · rintro ⟨rfl, rfl⟩
        exact Or.inl ⟨⟨[], rfl⟩, rfl, rfl⟩
      · rintro (⟨⟨found, hfound⟩, rfl, rfl⟩ | ⟨found, name, later, source, hnames, -⟩)
        · obtain rfl := List.map_eq_nil_iff.mp hfound
          exact ⟨rfl, rfl⟩
        · simp at hnames
  | cons name names ih =>
      constructor
      · rintro ⟨source | ptr, t', rfl, hruns⟩
        · obtain ⟨rfl, rfl⟩ := hruns
          exact Or.inr ⟨[], name, names, source, rfl, rfl, rfl⟩
        · obtain ⟨t₁, t₂, r, rfl, hresolve, rfl, rfl⟩ :=
            (Prog.runs_bind (p := resolve lib path names)).mp hruns
          rcases ih.mp hresolve with
            ⟨⟨found, hfound⟩, rfl, rfl⟩ | ⟨found, name', later, source, rfl, rfl, rfl⟩
          · exact Or.inl ⟨⟨(name, ptr) :: found, congrArg _ hfound⟩, by simp [answered], rfl⟩
          · exact Or.inr ⟨(name, ptr) :: found, name', later, source, rfl, by simp [answered], rfl⟩
      · rintro (⟨⟨- | ⟨⟨name', ptr⟩, found⟩, hfound⟩, rfl, rfl⟩ |
          ⟨- | ⟨⟨name', ptr⟩, found⟩, name'', later, source, hnames, rfl, rfl⟩)
        · cases hfound
        · cases hfound
          refine ⟨.ok ptr, answered lib found, rfl, (Prog.runs_bind (p := resolve lib path _)).mpr ?_⟩
          exact ⟨_, [], .ok ⟨found, rfl⟩, by simp, ih.mpr (Or.inl ⟨⟨found, rfl⟩, rfl, rfl⟩), rfl, rfl⟩
        · cases hnames
          exact ⟨.error source, [], rfl, rfl, rfl⟩
        · cases hnames
          refine ⟨.ok ptr, _, rfl, (Prog.runs_bind (p := resolve lib path _)).mpr ?_⟩
          have hresolve := ih.mpr (Or.inr ⟨found, name'', later, source, rfl, rfl, rfl⟩)
          exact ⟨_, [], _, (List.append_nil _).symm, hresolve, rfl, rfl⟩

theorem fromLibrary_runs (path : String) (lib : Library) {t : List (Event Loader)}
    {b : Except VmbLoadError LoadedApi} :
    (fromLibrary path lib).Runs t b ↔
      (∃ api, api.lib = lib ∧ t = answered api.lib api.pointers ∧ b = .ok api) ∨
      ∃ found name later source, symbols = found.map Prod.fst ++ name :: later ∧
        t = answered lib found ++ [⟨.get lib name, .error source⟩, ⟨.close lib, ()⟩] ∧
        b = .error (.symbolResolution name path source) := by
  constructor
  · intro hruns
    obtain ⟨t₁, t₂, r, rfl, hresolve, hrest⟩ :=
      (Prog.runs_bind (p := resolve lib path symbols)).mp hruns
    rcases (resolve_runs lib path symbols).mp hresolve with
      ⟨⟨found, hfound⟩, rfl, rfl⟩ | ⟨found, name, later, source, hsymbols, rfl, rfl⟩
    · obtain ⟨rfl, rfl⟩ := hrest
      exact Or.inl ⟨⟨lib, found, hfound⟩, rfl, List.append_nil _, rfl⟩
    · obtain ⟨-, t₃, rfl, rfl, rfl⟩ := hrest
      exact Or.inr ⟨found, name, later, source, hsymbols, by simp, rfl⟩
  · rintro (⟨⟨lib', found, hfound⟩, rfl, rfl, rfl⟩ | ⟨found, name, later, source, hsymbols, rfl, rfl⟩)
    · refine (Prog.runs_bind (p := resolve lib' path symbols)).mpr ?_
      exact ⟨_, [], _, (List.append_nil _).symm,
        (resolve_runs lib' path symbols).mpr (Or.inl ⟨⟨found, hfound⟩, rfl, rfl⟩), rfl, rfl⟩
    · refine (Prog.runs_bind (p := resolve lib path symbols)).mpr ?_
      exact ⟨_, [⟨.close lib, ()⟩], _, by simp,
        (resolve_runs lib path symbols).mpr (Or.inr ⟨found, name, later, source, hsymbols, rfl, rfl⟩),
        (), [], rfl, rfl, rfl⟩

/-- The bare file name is the last candidate, so there is one. -/
theorem candidatePaths_last (os : TargetOs) (arch : TargetArch) (home : Option String) :
    ∃ front, candidatePaths os arch home = front ++ [libFileName os] := ⟨_, rfl⟩

theorem gaveUp_candidates {os : TargetOs} {arch : TargetArch} {home : Option String}
    {tried : List (String × String)} (htried : candidatePaths os arch home = tried.map Prod.fst) :
    ∃ tried' source, tried = tried' ++ [(libFileName os, source)] := by
  obtain ⟨front, hfront⟩ := candidatePaths_last os arch home
  rw [hfront] at htried
  obtain ⟨tried', last, rfl, -, hlast⟩ := List.map_eq_append_iff.mp htried.symm
  obtain ⟨⟨path, source⟩, rfl, rfl⟩ := List.map_eq_singleton_iff.mp hlast
  exact ⟨tried', source, rfl⟩

/-- Once a candidate opens, `load` goes on as `from_library` does. -/
theorem load_opened {os : TargetOs} {arch : TargetArch} {home : Option String}
    {tried : List (String × String)} {path : String} {later : List String} {lib : Library}
    {t : List (Event Loader)} {api : Except VmbLoadError LoadedApi}
    (candidates : candidatePaths os arch home = tried.map Prod.fst ++ path :: later)
    (hruns : (fromLibrary path lib).Runs t api) :
    (load os arch).Runs (⟨.var "VIMBA_X_HOME", home⟩ :: (refused tried ++ ⟨.new path, .ok lib⟩ :: t))
      (.returned api) := by
  have hopen : (openFirst none (candidatePaths os arch home)).Runs
      (refused tried ++ [⟨.new path, .ok lib⟩]) (.returned (.ok (path, lib))) :=
    (openFirst_runs none _).mpr (Or.inr ⟨tried, path, later, lib, candidates, rfl, rfl⟩)
  refine ⟨home, _, rfl, (Prog.runs_bind (p := openFirst none (candidatePaths os arch home))).mpr ?_⟩
  refine ⟨_, t, _, ?_, hopen, (Prog.runs_bind (p := fromLibrary path lib)).mpr ?_⟩
  · rw [List.append_assoc]
    rfl
  · exact ⟨t, [], api, (List.append_nil t).symm, hruns, rfl, rfl⟩

/-- If no candidate opens, `load` reports the last of them. -/
theorem load_refused {os : TargetOs} {arch : TargetArch} {home : Option String}
    {tried : List (String × String)} {source : String}
    (all : candidatePaths os arch home = tried.map Prod.fst ++ [libFileName os]) :
    (load os arch).Runs (⟨.var "VIMBA_X_HOME", home⟩ :: refused (tried ++ [(libFileName os, source)]))
      (.returned (.error (.libraryOpen (libFileName os) source))) := by
  have htried : candidatePaths os arch home = (tried ++ [(libFileName os, source)]).map Prod.fst := by
    rw [all, List.map_append, List.map_singleton]
  have hopen : (openFirst none (candidatePaths os arch home)).Runs
      (refused (tried ++ [(libFileName os, source)]))
      (gaveUp ((tried ++ [(libFileName os, source)]).getLast?.or none)) :=
    (openFirst_runs none _).mpr (Or.inl ⟨_, htried, rfl, rfl⟩)
  rw [List.getLast?_concat] at hopen
  refine ⟨home, _, rfl, (Prog.runs_bind (p := openFirst none (candidatePaths os arch home))).mpr ?_⟩
  exact ⟨_, [], _, (List.append_nil _).symm, hopen, rfl, rfl⟩

/-- **The runs of `load` are these**, in every environment: it does not panic, it tries the candidates
in order up to the first that opens, and it returns with no library open or with the API of the one it
has opened. -/
theorem load_runs (os : TargetOs) (arch : TargetArch) {t : List (Event Loader)}
    {b : Exit (Except VmbLoadError LoadedApi)} : (load os arch).Runs t b ↔ LoadRun os arch t b := by
  constructor
  · rintro ⟨home, t', rfl, hruns⟩
    obtain ⟨t₁, t₂, r, rfl, hopen, hrest⟩ :=
      (Prog.runs_bind (p := openFirst none (candidatePaths os arch home))).mp hruns
    rcases (openFirst_runs none _).mp hopen with
      ⟨tried, htried, rfl, rfl⟩ | ⟨tried, path, later, lib, hcandidates, rfl, rfl⟩
    · obtain ⟨tried, source, rfl⟩ := gaveUp_candidates htried
      rw [List.getLast?_concat] at hrest
      obtain ⟨rfl, rfl⟩ := hrest
      rw [List.append_nil]
      exact .notFound home tried source (by rw [htried, List.map_append, List.map_singleton])
    · obtain ⟨t₃, t₄, api, rfl, hlibrary, rfl, rfl⟩ :=
        (Prog.runs_bind (p := fromLibrary path lib)).mp hrest
      rw [List.append_nil, List.append_assoc]
      rcases (fromLibrary_runs path lib).mp hlibrary with
        ⟨api, rfl, rfl, rfl⟩ | ⟨found, name, names, source, hsymbols, rfl, rfl⟩
      · exact .loaded home tried path later api hcandidates
      · exact .incomplete home tried path later lib found name names source hcandidates hsymbols
  · intro h
    cases h with
    | notFound home tried source all => exact load_refused all
    | incomplete home tried path later lib found name names source candidates missing =>
        have hlibrary := (fromLibrary_runs path lib).mpr
          (Or.inr ⟨found, name, names, source, missing, rfl, rfl⟩)
        exact load_opened candidates hlibrary
    | loaded home tried path later api candidates =>
        have hlibrary := (fromLibrary_runs path api.lib).mpr (Or.inl ⟨api, rfl, rfl, rfl⟩)
        exact load_opened candidates hlibrary

end Vmb.Sdk

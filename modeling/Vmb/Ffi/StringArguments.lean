/-
# Vmb.Ffi.StringArguments -- strings on their way to the SDK

Three methods pass a string of the caller to the SDK: the id of a camera, the name of a feature
command and the path of a settings file. An id and a name are `&str`; they arrive byte for byte or are
refused for a NUL. A path is any byte string, and `load_settings` repairs it to UTF-8 instead of
refusing it: a path that is not UTF-8 reaches the SDK as another path (`unaltered_iff`).
-/
import Vmb.Ffi.Step

namespace Vmb.Ffi

open Vmb.Lib Vmb.Core Vmb.Sdk

/-! ## The arguments -/

/-- A string of the caller, and what it is given to. -/
inductive StringArgument where
  | cameraId (id : String)
  | commandName (h : CameraHandle) (name : String)
  | settingsPath (h : CameraHandle) (path : Path)

namespace StringArgument

/-- The bytes of the caller. -/
def text : StringArgument → List UInt8
  | .cameraId id => bytes id
  | .commandName _ name => bytes name
  | .settingsPath _ path => path

def call : StringArgument → PortCall
  | .cameraId id => .openCamera id
  | .commandName h name => .runFeatureCommand h name
  | .settingsPath h path => .loadSettings h path

/-- The call of the SDK that is meant, when the handle of the camera stands for `raw`. -/
def sdkCall (raw : VmbHandle) (c : CString) : StringArgument → SdkCall
  | .cameraId _ => .vmbCameraOpen c vmbAccessModeFull
  | .commandName _ _ => .vmbFeatureCommandRun raw c
  | .settingsPath _ _ => .vmbSettingsLoad raw c

/-- The camera is open, under the handle `raw` of the SDK. -/
def Live (s : FfiState) (raw : VmbHandle) : StringArgument → Prop
  | .cameraId _ => True
  | .commandName h _ => s.cameras.lookup h = some raw
  | .settingsPath h _ => s.cameras.lookup h = some raw

/-- The string has a NUL byte or is not UTF-8. -/
def Invalid (arg : StringArgument) : Prop := (0 : UInt8) ∈ arg.text ∨ fromUtf8 arg.text = none

end StringArgument

/-- The SDK is called with exactly the bytes of the caller, and with nothing else. -/
def Passed {τ : Type} (api : VmbApi τ) (x : FfiState × τ) (raw : VmbHandle) (arg : StringArgument) :
    Prop :=
  ∃ c : CString, c.1 = arg.text ∧ (sdkCalls api x arg.call).map Event.call = [arg.sdkCall raw c]

/-- No SDK call is made, and the caller gets `InvalidString`. -/
def Refused {τ : Type} (api : VmbApi τ) (x : FfiState × τ) (arg : StringArgument) : Prop :=
  sdkCalls api x arg.call = [] ∧
    ∃ context, Fails (.invalidString context) arg.call (vmbFfiRuntime api x arg.call).1

/-- The string crosses the boundary unaltered or is refused, the latter exactly if it is invalid. -/
structure Unaltered {τ : Type} (api : VmbApi τ) (x : FfiState × τ) (raw : VmbHandle)
    (arg : StringArgument) : Prop where
  passed_or_refused : Passed api x raw arg ∨ Refused api x arg
  refused_iff : Refused api x arg ↔ arg.Invalid

/-! ## What the adapter passes on -/

/-- The bytes the adapter makes a C string of. -/
def StringArgument.converted : StringArgument → List UInt8
  | .cameraId id => bytes id
  | .commandName _ name => bytes name
  | .settingsPath _ path => lossy path

theorem zero_mem_converted (arg : StringArgument) :
    (0 : UInt8) ∈ arg.converted ↔ (0 : UInt8) ∈ arg.text := by
  cases arg with
  | cameraId id => rfl
  | commandName h name => rfl
  | settingsPath h path => exact mem_lossy_zero path

/-- A string that is UTF-8 is not changed. -/
theorem converted_eq {arg : StringArgument} (h : (fromUtf8 arg.text).isSome) :
    arg.converted = arg.text := by
  cases arg with
  | cameraId id => rfl
  | commandName h name => rfl
  | settingsPath h path =>
      obtain ⟨text, htext⟩ := Option.isSome_iff_exists.mp h
      obtain rfl : bytes text = path := fromUtf8_eq_some_iff.mp htext
      exact lossy_bytes text

section

variable {τ : Type} (api : VmbApi τ) {s : FfiState} (t : τ) {raw : VmbHandle} {arg : StringArgument}

theorem resolveCamera_of_lookup {h : CameraHandle} (hraw : s.cameras.lookup h = some raw) :
    s.resolveCamera h = .ok raw := by
  unfold FfiState.resolveCamera
  rw [hraw]

/-- A string that makes no C string ends the method. -/
theorem dispatch_of_none (hlive : arg.Live s raw) (h : CString.new arg.converted = none) :
    ∃ r, s.dispatch arg.call = .done (r, s) ∧
      ∃ context, Fails (.invalidString context) arg.call r := by
  cases arg with
  | cameraId id =>
      refine ⟨.returned (.error (.invalidString "camera_id")), ?_, _, rfl⟩
      show s.openCamera id = _
      unfold FfiState.openCamera
      rw [show CString.new (bytes id) = none from h]
      rfl
  | commandName h' name =>
      refine ⟨.error (.invalidString "feature_command"), ?_, _, rfl⟩
      show s.runFeatureCommand h' name = _
      unfold FfiState.runFeatureCommand
      rw [resolveCamera_of_lookup hlive, show CString.new (bytes name) = none from h]
      rfl
  | settingsPath h' path =>
      refine ⟨.error (.invalidString "settings_xml path"), ?_, _, rfl⟩
      show s.loadSettings h' path = _
      unfold FfiState.loadSettings
      rw [resolveCamera_of_lookup hlive, show CString.new (lossy path) = none from h]
      rfl

/-- A string with a NUL byte is refused before the SDK is called. -/
theorem refused_of_zero_mem (hlive : arg.Live s raw) (h : (0 : UInt8) ∈ arg.converted) :
    Refused api (s, t) arg := by
  obtain ⟨r, hprog, context, hfails⟩ := dispatch_of_none hlive (CString.new_eq_none.mpr h)
  unfold Refused sdkCalls vmbFfiRuntime
  rw [hprog]
  exact ⟨rfl, context, hfails⟩

/-- Any other string is passed to the SDK as it was converted. -/
theorem sdkCalls_of_new (hlive : arg.Live s raw) {c : CString} (h : CString.new arg.converted = some c) :
    (sdkCalls api (s, t) arg.call).map Event.call = [arg.sdkCall raw c] := by
  cases arg with
  | cameraId id => exact sdkCalls_openCamera api s t h
  | commandName h' name =>
      show (((s.runFeatureCommand h' name).history api t).map Prod.snd).map Event.call = _
      unfold FfiState.runFeatureCommand
      rw [resolveCamera_of_lookup hlive, show CString.new (bytes name) = some c from h]
      rfl
  | settingsPath h' path =>
      show (((s.loadSettings h' path).history api t).map Prod.snd).map Event.call = _
      unfold FfiState.loadSettings
      rw [resolveCamera_of_lookup hlive, show CString.new (lossy path) = some c from h]
      rfl

theorem not_refused_of_new (hlive : arg.Live s raw) {c : CString}
    (h : CString.new arg.converted = some c) : ¬ Refused api (s, t) arg := by
  intro hrefused
  have hcalls := sdkCalls_of_new api t hlive h
  rw [hrefused.1] at hcalls
  cases hcalls

/-- **Strings cross the boundary unaltered or are refused**, exactly if they are UTF-8 or have a NUL
byte. Ids and names always are; a path that is neither is repaired and passed on. -/
theorem unaltered_iff (hlive : arg.Live s raw) :
    Unaltered api (s, t) raw arg ↔ (0 : UInt8) ∈ arg.text ∨ (fromUtf8 arg.text).isSome := by
  by_cases hnul : (0 : UInt8) ∈ arg.text
  · have hrefused := refused_of_zero_mem api t hlive ((zero_mem_converted arg).mpr hnul)
    exact ⟨fun _ => Or.inl hnul, fun _ => ⟨Or.inr hrefused, fun _ => Or.inl hnul, fun _ => hrefused⟩⟩
  · have hnew : CString.new arg.converted = some ⟨arg.converted, mt (zero_mem_converted arg).mp hnul⟩ :=
      CString.new_eq_some _
    have hnot := not_refused_of_new api t hlive hnew
    constructor
    · intro h
      refine Or.inr (Option.isSome_iff_ne_none.mpr fun hinvalid => ?_)
      exact hnot (h.refused_iff.mpr (Or.inr hinvalid))
    · intro h
      have hutf8 := h.resolve_left hnul
      refine ⟨Or.inl ⟨_, converted_eq hutf8, sdkCalls_of_new api t hlive hnew⟩, ?_⟩
      constructor
      · exact fun hrefused => absurd hrefused hnot
      · rintro (hzero | hinvalid)
        · exact absurd hzero hnul
        · rw [hinvalid] at hutf8
          cases hutf8

end

/-! ## A path in another encoding -/

def oneHandle : CameraHandle := ⟨⟨1, nonZero_one⟩⟩

/-- A camera is open. -/
def oneOpen : FfiState :=
  { FfiState.new with cameras := FfiState.new.cameras.insert oneHandle 1 }

theorem oneOpen_lookup : oneOpen.cameras.lookup oneHandle = some 1 := Finmap.lookup_insert _

/-- A command name arrives as it is. -/
theorem unaltered_iff_command :
    Unaltered mockApi (oneOpen, 2) 1 (.commandName oneHandle "AcquisitionStart") := by
  have hlive : (StringArgument.commandName oneHandle "AcquisitionStart").Live oneOpen 1 :=
    oneOpen_lookup
  have hutf8 : (fromUtf8 (StringArgument.commandName oneHandle "AcquisitionStart").text).isSome := by
    rw [StringArgument.text, fromUtf8_bytes]
    rfl
  exact (unaltered_iff mockApi 2 hlive).mpr (Or.inr hutf8)

/-- The path `é.xml` in Latin-1. -/
def latin1Path : Path := [0xE9, 0x2E, 0x78, 0x6D, 0x6C]

theorem fromUtf8_latin1Path : fromUtf8 latin1Path = none := by
  refine Option.eq_none_iff_forall_ne_some.mpr fun text htext => ?_
  have hlossy := lossy_bytes text
  rw [fromUtf8_eq_some_iff.mp htext] at hlossy
  exact absurd hlossy (by decide)

/-- The SDK is told to load the path with U+FFFD for the first byte. -/
theorem not_unaltered_latin1Path :
    (sdkCalls mockApi (oneOpen, 2) (.loadSettings oneHandle latin1Path)).map Event.call =
        [.vmbSettingsLoad 1 ⟨replacement ++ [0x2E, 0x78, 0x6D, 0x6C], by decide⟩] ∧
      ¬ Unaltered mockApi (oneOpen, 2) 1 (.settingsPath oneHandle latin1Path) := by
  have hnew : CString.new (StringArgument.settingsPath oneHandle latin1Path).converted =
      some ⟨replacement ++ [0x2E, 0x78, 0x6D, 0x6C], by decide⟩ := by decide
  have hlive : (StringArgument.settingsPath oneHandle latin1Path).Live oneOpen 1 := oneOpen_lookup
  refine ⟨sdkCalls_of_new mockApi 2 hlive hnew, fun h => ?_⟩
  exact not_refused_of_new mockApi 2 hlive hnew (h.refused_iff.mpr (Or.inr fromUtf8_latin1Path))

end Vmb.Ffi

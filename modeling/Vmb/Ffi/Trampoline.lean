/-
# Vmb.Ffi.Trampoline -- the discovery trampoline

`discovery_trampoline` is called by the SDK on its own thread with the user context of a
registration. It reads the two features of the event, decodes them and invokes the closure of the
context. A user context that has been reclaimed is a use after free; the model reports it as
`dangling`.

The id comes in a buffer of 256 bytes, of which the trampoline takes a slice as long as the SDK says. The
arithmetic is that of `usize`, and a subtraction below zero or a slice past the end of the buffer panics;
`decodeString_eq` says that neither happens.
-/
import Vmb.Ffi.State

namespace Vmb.Ffi

open Vmb.Lib Vmb.Core Vmb.Sdk

/-- What one call of the trampoline does to user code. -/
inductive Delivery where
  | invoked (callback : DiscoveryCallback) (event : DiscoveryEvent)
  | ignored
  | dangling
  /-- A panic of the trampoline itself, which ends at `catch_unwind`. -/
  | panicked (message : String)
  deriving DecidableEq

def featureDiscoveryCameraId : String := "EventCameraDiscoveryCameraID"
def featureDiscoveryType : String := "EventCameraDiscoveryType"

def discoveryTypeDetected : String := "Detected"
def discoveryTypeMissing : String := "Missing"
def discoveryTypeReachable : String := "Reachable"
def discoveryTypeUnreachable : String := "Unreachable"

/-- `String::from_utf8`. -/
def fromUtf8 (bs : List UInt8) : Option String := String.fromUTF8? ⟨bs.toArray⟩

/-- `cstr_to_owned`. -/
def cstrToOwned (ptr : Option CString) (fallback : String) : String :=
  match ptr with
  | none => fallback
  | some cstr => (fromUtf8 cstr.1).getD fallback

/-- `buf` after the SDK has written `filled` to its start. -/
def writtenTo {α : Type} (buf filled : List α) : List α :=
  filled.take buf.length ++ buf.drop filled.length

/-- `usize::saturating_sub`. -/
def saturatingSub (a b : UInt64) : UInt64 := if a < b then 0 else a - b

/-- A subtraction of `usize` values. -/
def checkedSub (a b : UInt64) : Exit UInt64 :=
  if a < b then .panicked "attempt to subtract with overflow" else .returned (a - b)

/-- `(filled as usize).saturating_sub(1).min(buf.len() - 1)`. -/
def sliceEnd (filled : UInt32) (len : UInt64) : Exit UInt64 :=
  match checkedSub len 1 with
  | .panicked m => .panicked m
  | .returned last => .returned (min (saturatingSub filled.toUInt64 1) last)

/-- `&buf[..end]`. -/
def sliceTo (buf : List UInt8) (stop : UInt64) : Exit (List UInt8) :=
  if stop.toNat ≤ buf.length then .returned (buf.take stop.toNat)
  else .panicked "range end index out of range for slice"

/-- The end of `read_string_feature`: the reported size counts the trailing NUL. -/
def decodeString (buf : List UInt8) (filled : UInt32) : Exit (Option String) :=
  match sliceEnd filled (UInt64.ofNat buf.length) with
  | .panicked m => .panicked m
  | .returned stop =>
    match sliceTo buf stop with
    | .panicked m => .panicked m
    | .returned slice => .returned (fromUtf8 slice)

/-- `read_string_feature`. -/
def readStringFeature (handle : VmbHandle) (name : String) : SdkM (Exit (Option String)) :=
  match CString.new (bytes name) with
  | none => pure (.returned none)
  | some cName => do
    let a ← vmb (.vmbFeatureStringGet handle cName 256)
    if a.rc ≠ 0 then
      pure (.returned none)
    else
      pure (decodeString (writtenTo (List.replicate 256 0) a.buffer) a.sizeFilled)

/-- `read_enum_feature`. -/
def readEnumFeature (handle : VmbHandle) (name : String) : SdkM (Option String) :=
  match CString.new (bytes name) with
  | none => pure none
  | some cName => do
    let a ← vmb (.vmbFeatureEnumGet handle cName)
    if a.1 ≠ 0 ∨ a.2 = none then
      pure none
    else
      pure (some (cstrToOwned a.2 ""))

/-- The event of a type name. -/
def discoveryEvent (kind id : String) : Option DiscoveryEvent :=
  if kind = discoveryTypeDetected then some (.detected id)
  else if kind = discoveryTypeMissing then some (.missing id)
  else if kind = discoveryTypeReachable then some (.reachable id)
  else if kind = discoveryTypeUnreachable then some (.unreachable id)
  else none

/-- `discovery_trampoline`. -/
def discoveryTrampoline (heap : Heap) (handle : VmbHandle) (userContext : Nat) : SdkM Delivery :=
  if userContext = 0 then
    pure .ignored
  else
    match heap.contexts.lookup userContext with
    | none => pure .dangling
    | some ctx => do
      match ← readStringFeature handle featureDiscoveryCameraId with
      | .panicked m => pure (.panicked m)
      | .returned none => pure .ignored
      | .returned (some id) => do
        match ← readEnumFeature handle featureDiscoveryType with
        | none => pure .ignored
        | some kind =>
          match discoveryEvent kind id with
          | none => pure .ignored
          | some event => pure (.invoked ctx.callback event)

/-! ## The slice of the buffer -/

/-- For every reported size the slice ends before the last byte of the buffer, without an overflow. -/
theorem sliceEnd_eq (filled : UInt32) :
    ∃ stop, sliceEnd filled 256 = .returned stop ∧ stop.toNat = min (filled.toNat - 1) 255 := by
  have hlt := filled.toNat_lt
  have hwide : filled.toUInt64.toNat = filled.toNat := UInt32.toNat_toUInt64 filled
  have hsub : (saturatingSub filled.toUInt64 1).toNat = filled.toNat - 1 := by
    unfold saturatingSub
    by_cases hzero : filled.toUInt64 < 1
    · have hnat : filled.toNat = 0 := by
        rw [UInt64.lt_iff_toNat_lt, hwide] at hzero
        exact Nat.lt_one_iff.mp hzero
      rw [if_pos hzero, hnat]
      rfl
    · have hpos : 1 ≤ filled.toNat := by
        rw [UInt64.lt_iff_toNat_lt, hwide] at hzero
        exact Nat.not_lt.mp hzero
      rw [if_neg hzero, UInt64.toNat_sub_of_le _ _ (UInt64.le_iff_toNat_le.mpr (hwide ▸ hpos)), hwide]
      rfl
  refine ⟨min (saturatingSub filled.toUInt64 1) 255, rfl, ?_⟩
  show (if saturatingSub filled.toUInt64 1 ≤ (255 : UInt64) then _ else _ : UInt64).toNat = _
  by_cases hle : saturatingSub filled.toUInt64 1 ≤ (255 : UInt64)
  · have hnat : filled.toNat - 1 ≤ 255 := hsub ▸ UInt64.le_iff_toNat_le.mp hle
    rw [if_pos hle, hsub, Nat.min_eq_left hnat]
  · have hnat : ¬ filled.toNat - 1 ≤ 255 := fun h => hle (UInt64.le_iff_toNat_le.mpr (hsub.symm ▸ h))
    rw [if_neg hle, Nat.min_eq_right (by omega)]
    rfl

/-- The buffer keeps its 256 bytes, whatever is written to it. -/
theorem length_idBuffer (a : StringGetAnswer) :
    (writtenTo (List.replicate 256 (0 : UInt8)) a.buffer).length = 256 := by
  simp only [writtenTo, List.length_append, List.length_take, List.length_drop, List.length_replicate]
  omega

/-- **A buffer of 256 bytes is decoded without a panic**, whatever size has been reported. -/
theorem decodeString_eq {buf : List UInt8} (hlen : buf.length = 256) (filled : UInt32) :
    decodeString buf filled = .returned (fromUtf8 (buf.take (min (filled.toNat - 1) 255))) := by
  obtain ⟨stop, hstop, hnat⟩ := sliceEnd_eq filled
  have hstop' : sliceEnd filled (UInt64.ofNat buf.length) = .returned stop := by
    rw [hlen]
    exact hstop
  have hinside : stop.toNat ≤ buf.length := by omega
  unfold decodeString sliceTo
  rw [hstop']
  dsimp only
  rw [if_pos hinside, hnat]

/-! ## What the trampoline calls -/

/-- The call reads a feature. -/
def ReadsFeature : SdkCall → Prop
  | .vmbFeatureStringGet _ _ _ => True
  | .vmbFeatureEnumGet _ _ => True
  | _ => False

theorem readStringFeature_reads (handle : VmbHandle) (name : String) :
    (readStringFeature handle name).CallsOnly ReadsFeature := by
  unfold readStringFeature
  cases CString.new (bytes name) with
  | none => trivial
  | some cName =>
      refine ⟨trivial, fun a => ?_⟩
      show Prog.CallsOnly _ (if a.rc ≠ 0 then _ else _ : SdkM (Exit (Option String)))
      split <;> trivial

theorem readEnumFeature_reads (handle : VmbHandle) (name : String) :
    (readEnumFeature handle name).CallsOnly ReadsFeature := by
  unfold readEnumFeature
  cases CString.new (bytes name) with
  | none => trivial
  | some cName =>
      refine ⟨trivial, fun a => ?_⟩
      show Prog.CallsOnly _ (if a.1 ≠ 0 ∨ a.2 = none then _ else _ : SdkM (Option String))
      split <;> trivial

/-- The discovery trampoline reads features, and calls nothing else of the SDK. -/
theorem discoveryTrampoline_reads (heap : Heap) (handle : VmbHandle) (userContext : Nat) :
    (discoveryTrampoline heap handle userContext).CallsOnly ReadsFeature := by
  unfold discoveryTrampoline
  split
  · trivial
  · cases heap.contexts.lookup userContext with
    | none => trivial
    | some ctx =>
        refine (readStringFeature_reads handle _).bind fun id => ?_
        rcases id with (- | id) | m
        · trivial
        · refine (readEnumFeature_reads handle _).bind fun kind => ?_
          cases kind with
          | none => trivial
          | some kind =>
              dsimp only
              cases discoveryEvent kind id <;> trivial
        · trivial

/-- On a live context the trampoline is not left dangling, whatever the SDK answers. -/
theorem discoveryTrampoline_of_live {heap : Heap} {userContext : Nat} {ctx : DiscoveryTrampolineCtx}
    (hctx : heap.contexts.lookup userContext = some ctx) (handle : VmbHandle) :
    (discoveryTrampoline heap handle userContext).Meets (.free VmbC) (fun d _ => d ≠ .dangling) () := by
  unfold discoveryTrampoline
  split
  · exact Delivery.noConfusion
  · rw [hctx]
    refine Prog.meets_bind.mpr ((Prog.meets_free _).mono fun id _ _ => ?_)
    rcases id with (- | id) | m
    · exact Delivery.noConfusion
    · refine Prog.meets_bind.mpr ((Prog.meets_free _).mono fun kind _ _ => ?_)
      cases kind with
      | none => exact Delivery.noConfusion
      | some kind =>
          dsimp only
          cases discoveryEvent kind id <;> exact Delivery.noConfusion
    · exact Delivery.noConfusion

/-! ## Readable events -/

/-- The camera id an event is about. -/
def eventId : DiscoveryEvent → String
  | .detected id => id
  | .missing id => id
  | .reachable id => id
  | .unreachable id => id

/-- The type name of an event. -/
def eventType : DiscoveryEvent → String
  | .detected _ => discoveryTypeDetected
  | .missing _ => discoveryTypeMissing
  | .reachable _ => discoveryTypeReachable
  | .unreachable _ => discoveryTypeUnreachable

theorem discoveryEvent_eventType (ev : DiscoveryEvent) :
    discoveryEvent (eventType ev) (eventId ev) = some ev := by
  cases ev <;> rfl

theorem fromUtf8_bytes (s : String) : fromUtf8 (bytes s) = some s := by
  show String.fromUTF8? ⟨s.toUTF8.data.toList.toArray⟩ = some s
  rw [Array.toArray_toList]
  exact dif_pos s.isValidUTF8

theorem fromUtf8_eq_some_iff {bs : List UInt8} {s : String} : fromUtf8 bs = some s ↔ bytes s = bs := by
  constructor
  · intro h
    unfold fromUtf8 String.fromUTF8? at h
    split at h
    · cases h
      rfl
    · cases h
  · rintro rfl
    exact fromUtf8_bytes s

/-- A C string is read as a non-empty text exactly if it is that text. -/
theorem cstrToOwned_eq_iff {t : CString} {s fallback : String} (hne : s ≠ fallback) :
    cstrToOwned (some t) fallback = s ↔ t.1 = bytes s := by
  show (fromUtf8 t.1).getD fallback = s ↔ _
  constructor
  · intro h
    rcases hdecode : fromUtf8 t.1 with - | s'
    · rw [hdecode] at h
      exact absurd h.symm hne
    · rw [hdecode] at h
      have hbytes := fromUtf8_eq_some_iff.mp hdecode
      rw [← hbytes]
      exact congrArg bytes h
  · intro h
    rw [h, fromUtf8_bytes]
    rfl

/-- The four type names. -/
def typeNames : List String :=
  [discoveryTypeDetected, discoveryTypeMissing, discoveryTypeReachable, discoveryTypeUnreachable]

theorem mem_typeNames_iff (id : String) {kind : String} :
    kind ∈ typeNames ↔ ∃ ev, eventType ev = kind ∧ eventId ev = id := by
  constructor
  · intro h
    simp only [typeNames, List.mem_cons, List.not_mem_nil, or_false] at h
    rcases h with rfl | rfl | rfl | rfl
    · exact ⟨.detected id, rfl, rfl⟩
    · exact ⟨.missing id, rfl, rfl⟩
    · exact ⟨.reachable id, rfl, rfl⟩
    · exact ⟨.unreachable id, rfl, rfl⟩
  · rintro ⟨ev, rfl, -⟩
    cases ev <;> simp [typeNames, eventType]

theorem ne_of_mem_typeNames : ∀ kind ∈ typeNames, kind ≠ "" := by decide

theorem zero_notMem_typeNames : ∀ kind ∈ typeNames, (0 : UInt8) ∉ bytes kind := by decide

theorem zero_notMem_eventType (ev : DiscoveryEvent) : (0 : UInt8) ∉ bytes (eventType ev) :=
  zero_notMem_typeNames _ ((mem_typeNames_iff (eventId ev)).mpr ⟨ev, rfl, rfl⟩)

/-- The SDK reads the features of `ev`: the id with its trailing NUL, and the type name. -/
structure Reads {τ : Type} (api : VmbApi τ) (t : τ) (ev : DiscoveryEvent) : Prop where
  id : ∀ handle name, api t (.vmbFeatureStringGet handle name 256) =
    (⟨0, bytes (eventId ev) ++ [0], UInt32.ofNat ((bytes (eventId ev)).length + 1)⟩, t)
  type : ∀ handle name, api t (.vmbFeatureEnumGet handle name) =
    ((0, CString.new (bytes (eventType ev))), t)

variable {τ : Type} {api : VmbApi τ} {t : τ} {ev : DiscoveryEvent}

theorem length_writtenTo {α : Type} {buf filled : List α} (h : filled.length ≤ buf.length) :
    (writtenTo buf filled).length = buf.length := by
  simp [writtenTo]
  omega

theorem take_writtenTo {α : Type} {buf bs rest : List α} (h : (bs ++ rest).length ≤ buf.length) :
    (writtenTo buf (bs ++ rest)).take bs.length = bs := by
  rw [writtenTo, List.take_of_length_le h]
  simp

/-- A readable id comes back as it was sent. -/
theorem run_readStringFeature (h : Reads api t ev) (hlen : (bytes (eventId ev)).length ≤ 255)
    (handle : VmbHandle) :
    (readStringFeature handle featureDiscoveryCameraId).run api t = (.returned (some (eventId ev)), t) := by
  have hname : CString.new (bytes featureDiscoveryCameraId) =
      some ⟨bytes featureDiscoveryCameraId, by decide⟩ := CString.new_eq_some _
  have hfits : (bytes (eventId ev) ++ [0]).length ≤ (List.replicate 256 (0 : UInt8)).length := by
    rw [List.length_append, List.length_replicate, List.length_singleton]
    omega
  have hsize : (UInt32.ofNat ((bytes (eventId ev)).length + 1)).toNat =
      (bytes (eventId ev)).length + 1 := Nat.mod_eq_of_lt (by omega)
  unfold readStringFeature
  rw [hname]
  show (vmb _ >>= _).run api t = _
  rw [run_vmb_bind, h.id]
  show (if (0 : Int32) ≠ 0 then _ else _ : SdkM (Exit (Option String))).run api t = _
  rw [if_neg (by decide)]
  show (decodeString _ _, t) = _
  -- the slice is cut before the NUL, which leaves the bytes of the id
  rw [decodeString_eq ((length_writtenTo hfits).trans List.length_replicate), hsize, Nat.add_sub_cancel,
    Nat.min_eq_left hlen, take_writtenTo hfits, fromUtf8_bytes]

/-- The type name comes back as it was sent. -/
theorem run_readEnumFeature (h : Reads api t ev) (handle : VmbHandle) :
    (readEnumFeature handle featureDiscoveryType).run api t = (some (eventType ev), t) := by
  have hname : CString.new (bytes featureDiscoveryType) =
      some ⟨bytes featureDiscoveryType, by decide⟩ := CString.new_eq_some _
  unfold readEnumFeature
  rw [hname]
  show (vmb _ >>= _).run api t = _
  rw [run_vmb_bind, h.type, CString.new_eq_some (zero_notMem_eventType ev)]
  show (if (0 : Int32) ≠ 0 ∨ some _ = none then _ else _ : SdkM (Option String)).run api t = _
  rw [if_neg (by simp)]
  show (some ((fromUtf8 (bytes (eventType ev))).getD ""), t) = _
  rw [fromUtf8_bytes]
  rfl

/-- **A readable event reaches the closure of a live context.** -/
theorem run_discoveryTrampoline (h : Reads api t ev) (hlen : (bytes (eventId ev)).length ≤ 255)
    {heap : Heap} {ctx : DiscoveryTrampolineCtx} {ptr : Nat} (hne : ptr ≠ 0)
    (hctx : heap.contexts.lookup ptr = some ctx) (handle : VmbHandle) :
    (discoveryTrampoline heap handle ptr).run api t = (.invoked ctx.callback ev, t) := by
  unfold discoveryTrampoline
  rw [if_neg hne, hctx]
  show (readStringFeature handle featureDiscoveryCameraId >>= _).run api t = _
  rw [Prog.run_bind, run_readStringFeature h hlen]
  show (readEnumFeature handle featureDiscoveryType >>= _).run api t = _
  rw [Prog.run_bind, run_readEnumFeature h]
  show (match discoveryEvent (eventType ev) (eventId ev) with
    | none => pure .ignored
    | some event => pure (.invoked ctx.callback event) : SdkM Delivery).run api t = _
  rw [discoveryEvent_eventType]
  rfl

end Vmb.Ffi

/-
# Vmb.Ffi.EventDecoding -- discovery events decode exactly

The trampoline reads an event from two features of the SDK: a string of bytes with a length, and a
name. Both readers keep what the SDK said byte for byte or give nothing, so the closure gets the
event the SDK announced and no other (`discoveryTrampoline_decodes`): it is invoked exactly if both
reads succeed, the id is UTF-8 that fits with its NUL into the buffer of 256 bytes, and the name is
one of the four the code knows.

Whatever the SDK writes and reports as the length, the trampoline does not panic: the slice it takes stays
in the buffer (`decodeString_eq`).
-/
import Vmb.Ffi.Discovery

namespace Vmb.Ffi

open Vmb.Lib Vmb.Core Vmb.Sdk

/-! ## The two features -/

def discoveryCameraId : CString := ⟨bytes featureDiscoveryCameraId, by decide⟩
def discoveryType : CString := ⟨bytes featureDiscoveryType, by decide⟩

section

variable {τ : Type} (api : VmbApi τ) (t : τ) (handle : VmbHandle)

/-- The answer to the read of the id. -/
def idAnswer : StringGetAnswer := (api t (.vmbFeatureStringGet handle discoveryCameraId 256)).1

/-- The state of the SDK after it. -/
def idRead : τ := (api t (.vmbFeatureStringGet handle discoveryCameraId 256)).2

/-- The answer to the read of the type. -/
def typeAnswer : Int32 × Option CString :=
  (api (idRead api t handle) (.vmbFeatureEnumGet handle discoveryType)).1

/-- The id read from an answer. -/
def idOf (a : StringGetAnswer) : Option String :=
  if a.rc ≠ 0 then none
  else fromUtf8 ((writtenTo (List.replicate 256 0) a.buffer).take (min (a.sizeFilled.toNat - 1) 255))

/-- The type name read from an answer. -/
def typeOf (a : Int32 × Option CString) : Option String :=
  if a.1 ≠ 0 ∨ a.2 = none then none else some (cstrToOwned a.2 "")

theorem run_readStringFeature_eq :
    (readStringFeature handle featureDiscoveryCameraId).run api t =
      (.returned (idOf (idAnswer api t handle)), idRead api t handle) := by
  have hname : CString.new (bytes featureDiscoveryCameraId) = some discoveryCameraId :=
    CString.new_eq_some _
  unfold readStringFeature
  rw [hname]
  show (vmb _ >>= _).run api t = _
  rw [run_vmb_bind]
  show Prog.run api (if (idAnswer api t handle).rc ≠ 0 then pure (Exit.returned none) else _) _ = _
  unfold idOf
  split
  · rfl
  · rw [decodeString_eq (length_idBuffer _)]
    rfl

theorem run_readEnumFeature_eq :
    ((readEnumFeature handle featureDiscoveryType).run api (idRead api t handle)).1 =
      typeOf (typeAnswer api t handle) := by
  have hname : CString.new (bytes featureDiscoveryType) = some discoveryType :=
    CString.new_eq_some _
  unfold readEnumFeature
  rw [hname]
  show ((vmb _ >>= _).run api _).1 = _
  rw [run_vmb_bind]
  show (Prog.run api (if (typeAnswer api t handle).1 ≠ 0 ∨ (typeAnswer api t handle).2 = none
    then pure none else _) _).1 = _
  unfold typeOf
  split <;> rfl

/-- What the trampoline makes of the two answers. -/
theorem run_discoveryTrampoline_eq {heap : Heap} {ctx : DiscoveryTrampolineCtx} {ptr : Nat}
    (hne : ptr ≠ 0) (hctx : heap.contexts.lookup ptr = some ctx) :
    ((discoveryTrampoline heap handle ptr).run api t).1 =
      match idOf (idAnswer api t handle), typeOf (typeAnswer api t handle) with
      | some id, some kind => (discoveryEvent kind id).elim .ignored (.invoked ctx.callback)
      | _, _ => .ignored := by
  unfold discoveryTrampoline
  rw [if_neg hne, hctx]
  show ((readStringFeature handle featureDiscoveryCameraId >>= _).run api t).1 = _
  rw [Prog.run_bind, run_readStringFeature_eq]
  rcases idOf (idAnswer api t handle) with - | id
  · rfl
  · show ((readEnumFeature handle featureDiscoveryType >>= _).run api (idRead api t handle)).1 = _
    rw [Prog.run_bind, run_readEnumFeature_eq]
    rcases typeOf (typeAnswer api t handle) with - | kind
    · rfl
    · dsimp only
      rcases discoveryEvent kind id with - | ev
      · rfl
      · rfl

theorem run_eq_invoked_iff {heap : Heap} {ctx : DiscoveryTrampolineCtx} {ptr : Nat}
    (hne : ptr ≠ 0) (hctx : heap.contexts.lookup ptr = some ctx) {f : DiscoveryCallback}
    {ev : DiscoveryEvent} :
    ((discoveryTrampoline heap handle ptr).run api t).1 = .invoked f ev ↔
      f = ctx.callback ∧ ∃ id kind, idOf (idAnswer api t handle) = some id ∧
        typeOf (typeAnswer api t handle) = some kind ∧ discoveryEvent kind id = some ev := by
  rw [run_discoveryTrampoline_eq api t handle hne hctx]
  rcases idOf (idAnswer api t handle) with - | id
  · simp
  · rcases typeOf (typeAnswer api t handle) with - | kind
    · simp
    · rcases hev : discoveryEvent kind id with - | ev'
      · simp [hev]
      · simp [hev, eq_comm]

end

/-! ## Exactness -/

/-- The SDK on a feature that holds the bytes `b`, asked with a buffer of `size` bytes: it succeeds
only if `b` and its NUL fit, and then it writes them and reports how many they are. -/
structure AnswersString (b : List UInt8) (size : Nat) (a : StringGetAnswer) : Prop where
  fits : a.rc = 0 → b.length + 1 ≤ size
  buffer : a.rc = 0 → a.buffer = b ++ [0]
  sizeFilled : a.rc = 0 → a.sizeFilled.toNat = b.length + 1

theorem idOf_eq_some_iff {b : List UInt8} {a : StringGetAnswer} (h : AnswersString b 256 a)
    {id : String} : idOf a = some id ↔ a.rc = 0 ∧ bytes id = b := by
  unfold idOf
  by_cases hrc : a.rc = 0
  · have hlen := h.fits hrc
    have hfits : (b ++ [0]).length ≤ (List.replicate 256 (0 : UInt8)).length := by
      rw [List.length_append, List.length_replicate, List.length_singleton]
      exact hlen
    have hend : min (a.sizeFilled.toNat - 1) 255 = b.length := by
      rw [h.sizeFilled hrc]
      omega
    rw [if_neg (not_not.mpr hrc), hend, h.buffer hrc, take_writtenTo hfits, fromUtf8_eq_some_iff]
    simp only [hrc, true_and]
  · rw [if_pos hrc]
    simp [hrc]

theorem discoveryEvent_eq_some_iff {kind id : String} {ev : DiscoveryEvent} :
    discoveryEvent kind id = some ev ↔ kind = eventType ev ∧ id = eventId ev := by
  constructor
  · intro h
    unfold discoveryEvent at h
    split_ifs at h with h₁ h₂ h₃ h₄ <;> cases h <;> exact ⟨‹kind = _›, rfl⟩
  · rintro ⟨rfl, rfl⟩
    exact discoveryEvent_eventType ev

theorem typeOf_eq_some_iff {a : Int32 × Option CString} {s : String} (hne : s ≠ "") :
    typeOf a = some s ↔ a.1 = 0 ∧ ∃ t : CString, a.2 = some t ∧ t.1 = bytes s := by
  rcases a with ⟨rc, - | t⟩
  · simp [typeOf]
  · unfold typeOf
    by_cases hrc : rc = 0
    · have hread := cstrToOwned_eq_iff (t := t) hne
      simp [hrc, hread]
    · simp [hrc]

/-- The closures a call of the trampoline invokes, each with its event. -/
def Delivery.invocations : Delivery → List (DiscoveryCallback × DiscoveryEvent)
  | .invoked callback event => [(callback, event)]
  | .ignored => []
  | .dangling => []
  | .panicked _ => []

theorem mem_invocations_iff {d : Delivery} {f : DiscoveryCallback} {ev : DiscoveryEvent} :
    (f, ev) ∈ d.invocations ↔ d = .invoked f ev := by
  cases d <;> simp [Delivery.invocations, eq_comm]

theorem length_invocations_le (d : Delivery) : d.invocations.length ≤ 1 := by
  cases d <;> simp [Delivery.invocations]

/-- What the trampoline does with the answers `a` and `a'` of the SDK, when the id feature holds the
bytes `b` and the registered closure is `callback`. -/
structure Decodes (b : List UInt8) (a : StringGetAnswer) (a' : Int32 × Option CString)
    (callback : DiscoveryCallback) (d : Delivery) : Prop where
  once : d.invocations.length ≤ 1
  /-- It invokes a closure exactly if both codes are 0, the bytes are UTF-8 and at most 255, and the
  type is one of the four. -/
  invokes : d.invocations ≠ [] ↔ a.rc = 0 ∧ a'.1 = 0 ∧ (fromUtf8 b).isSome ∧ b.length ≤ 255 ∧
    ∃ kind ∈ typeNames, ∃ t, a'.2 = some t ∧ t.1 = bytes kind
  /-- It is the registered closure, with the event of that type that carries exactly the bytes. -/
  exact : ∀ f ev, (f, ev) ∈ d.invocations → f = callback ∧ bytes (eventId ev) = b ∧
    ∃ t, a'.2 = some t ∧ t.1 = bytes (eventType ev)

/-- The features of an event, as the SDK hands them out. -/
def encodedId (ev : DiscoveryEvent) : StringGetAnswer :=
  ⟨0, bytes (eventId ev) ++ [0], UInt32.ofNat ((bytes (eventId ev)).length + 1)⟩

def encodedType (ev : DiscoveryEvent) : Int32 × Option CString := (0, CString.new (bytes (eventType ev)))

section

variable {τ : Type} (api : VmbApi τ) (t : τ) (handle : VmbHandle) {heap : Heap}
  {ctx : DiscoveryTrampolineCtx} {ptr : Nat}

/-- The trampoline invokes the registered closure with the event that was read, or nothing. -/
theorem invocations_run (hne : ptr ≠ 0) (hctx : heap.contexts.lookup ptr = some ctx)
    {b : List UInt8} (hb : AnswersString b 256 (idAnswer api t handle)) {f : DiscoveryCallback}
    {ev : DiscoveryEvent} :
    (f, ev) ∈ ((discoveryTrampoline heap handle ptr).run api t).1.invocations ↔
      f = ctx.callback ∧ ((idAnswer api t handle).rc = 0 ∧ bytes (eventId ev) = b) ∧
        (typeAnswer api t handle).1 = 0 ∧
        ∃ c : CString, (typeAnswer api t handle).2 = some c ∧ c.1 = bytes (eventType ev) := by
  rw [mem_invocations_iff, run_eq_invoked_iff api t handle hne hctx, ← idOf_eq_some_iff hb,
    ← typeOf_eq_some_iff (ne_of_mem_typeNames _ ((mem_typeNames_iff _).mpr ⟨ev, rfl, rfl⟩))]
  refine and_congr_right fun _ => ?_
  constructor
  · rintro ⟨id, kind, hid, hkind, hev⟩
    obtain ⟨rfl, rfl⟩ := discoveryEvent_eq_some_iff.mp hev
    exact ⟨hid, hkind⟩
  · rintro ⟨hid, hkind⟩
    exact ⟨eventId ev, eventType ev, hid, hkind, discoveryEvent_eventType ev⟩

theorem decodes_run (hne : ptr ≠ 0) (hctx : heap.contexts.lookup ptr = some ctx)
    {b : List UInt8} (hb : AnswersString b 256 (idAnswer api t handle)) :
    Decodes b (idAnswer api t handle) (typeAnswer api t handle) ctx.callback
      ((discoveryTrampoline heap handle ptr).run api t).1 := by
  have hmem : ∀ f ev, _ := fun f ev => @invocations_run τ api t handle heap ctx ptr hne hctx b hb f ev
  refine ⟨length_invocations_le _, ?_, fun f ev hev => ?_⟩
  · constructor
    · intro hsome
      obtain ⟨⟨f, ev⟩, hev⟩ := List.exists_mem_of_ne_nil _ hsome
      obtain ⟨-, ⟨hrc, hid⟩, hrc', htype⟩ := (hmem f ev).mp hev
      have hlen := hb.fits hrc
      refine ⟨hrc, hrc', ?_, by omega, eventType ev, (mem_typeNames_iff _).mpr ⟨ev, rfl, rfl⟩, htype⟩
      rw [fromUtf8_eq_some_iff.mpr hid]
      rfl
    -- the id and the type determine the event that is invoked
    · rintro ⟨hrc, hrc', hutf8, -, kind, hkind, htype⟩ hnil
      obtain ⟨id, hid⟩ := Option.isSome_iff_exists.mp hutf8
      obtain ⟨ev, rfl, rfl⟩ := (mem_typeNames_iff id).mp hkind
      have hev := (hmem ctx.callback ev).mpr ⟨rfl, ⟨hrc, fromUtf8_eq_some_iff.mp hid⟩, hrc', htype⟩
      rw [hnil] at hev
      exact absurd hev List.not_mem_nil
  · obtain ⟨hf, ⟨-, hid⟩, -, htype⟩ := (hmem f ev).mp hev
    exact ⟨hf, hid, htype⟩

theorem answersString_encodedId {ev : DiscoveryEvent} (hlen : (bytes (eventId ev)).length ≤ 255) :
    AnswersString (bytes (eventId ev)) 256 (encodedId ev) where
  fits _ := by omega
  buffer _ := rfl
  sizeFilled _ := Nat.mod_eq_of_lt (by omega)

/-- Whatever the SDK answers, no subtraction goes below zero and no slice leaves the buffer. -/
theorem run_ne_panicked (hne : ptr ≠ 0) (hctx : heap.contexts.lookup ptr = some ctx) (m : String) :
    ((discoveryTrampoline heap handle ptr).run api t).1 ≠ .panicked m := by
  rw [run_discoveryTrampoline_eq api t handle hne hctx]
  rcases idOf (idAnswer api t handle) with - | id
  · simp
  · rcases typeOf (typeAnswer api t handle) with - | kind
    · simp
    · rcases hev : discoveryEvent kind id with - | ev <;> simp [hev]

/-- **Discovery events decode exactly.** For every value of the id feature and every answer to the
read of the type, the trampoline invokes the closure of a live context as `Decodes` says; an event
that is encoded into the two features comes back; and whatever the SDK answers, the trampoline does not
panic: the slice it takes of the buffer stays inside it. -/
theorem discoveryTrampoline_decodes (hne : ptr ≠ 0) (hctx : heap.contexts.lookup ptr = some ctx) :
    (∀ b, AnswersString b 256 (idAnswer api t handle) →
        Decodes b (idAnswer api t handle) (typeAnswer api t handle) ctx.callback
          ((discoveryTrampoline heap handle ptr).run api t).1) ∧
      (∀ ev, (bytes (eventId ev)).length ≤ 255 → idAnswer api t handle = encodedId ev →
        typeAnswer api t handle = encodedType ev →
        ((discoveryTrampoline heap handle ptr).run api t).1 = .invoked ctx.callback ev) ∧
      (∀ m, ((discoveryTrampoline heap handle ptr).run api t).1 ≠ .panicked m) ∧
      ∀ buf filled, buf.length = 256 → ∃ stop, sliceEnd filled 256 = .returned stop ∧
        stop.toNat = min (filled.toNat - 1) 255 ∧ sliceTo buf stop = .returned (buf.take stop.toNat) := by
  refine ⟨fun b hb => decodes_run api t handle hne hctx hb, fun ev hlen hid htype => ?_,
    fun m => run_ne_panicked api t handle hne hctx m, fun buf filled hlen => ?_⟩
  · have hanswers : AnswersString (bytes (eventId ev)) 256 (idAnswer api t handle) :=
      hid ▸ answersString_encodedId hlen
    rw [← mem_invocations_iff, invocations_run api t handle hne hctx hanswers, hid, htype]
    exact ⟨rfl, ⟨rfl, rfl⟩, rfl, _, CString.new_eq_some (zero_notMem_eventType ev), rfl⟩
  · obtain ⟨stop, hstop, hnat⟩ := sliceEnd_eq filled
    exact ⟨stop, hstop, hnat, if_pos (by omega)⟩

end

/-- A detected camera reaches the closure in the context at address 1. -/
theorem discoveryTrampoline_decodes_detected :
    ((discoveryTrampoline (FfiState.new.intoRaw ⟨⟨7⟩⟩).2.heap gVmbHandle 1).run invalidationApi
      ⟨[], some (.detected "DEV_1")⟩).1 = .invoked ⟨7⟩ (.detected "DEV_1") := by
  have hctx : (FfiState.new.intoRaw ⟨⟨7⟩⟩).2.heap.contexts.lookup 1 = some ⟨⟨7⟩⟩ :=
    Finmap.lookup_insert _
  exact (discoveryTrampoline_decodes invalidationApi ⟨[], some (.detected "DEV_1")⟩ gVmbHandle
    one_ne_zero hctx).2.1 (.detected "DEV_1") (by decide) rfl rfl

end Vmb.Ffi

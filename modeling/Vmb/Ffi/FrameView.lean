/-
# Vmb.Ffi.FrameView -- the bytes a closure sees

An announced frame has a buffer of its own, and a closure should see bytes of that buffer only: a
`Frame` "borrows into the adapter's internal buffer". The trampoline builds the view from two fields
of the descriptor: it starts at `imageData`, which the SDK writes on every completion, and it is as
long as the whole buffer, which was fixed at announce time. So an image that does not start with the
buffer is seen beyond its end (`viewsInside_iff`).

Which bytes are handed on is said without looking into the trampoline: a range is handed to the
closure if the closure gets the contents of the range, whatever the memory holds (`Hands`).
-/
import Vmb.Ffi.FailedCalls

namespace Vmb.Ffi

open Vmb.Lib Vmb.Core Vmb.Sdk

/-! ## Byte ranges -/

/-- A range of addresses. -/
structure View where
  start : Nat
  len : Nat
  deriving DecidableEq

/-- The contents of the range. -/
def View.bytes (v : View) (byte : Nat → UInt8) : List UInt8 :=
  (List.range v.len).map fun i => byte (v.start + i)

/-- The range is empty, or inside the buffer. -/
def View.Within (v : View) (buffer : Box Nat) : Prop :=
  v.len = 0 ∨ buffer.addr ≤ v.start ∧ v.start + v.len ≤ buffer.addr + buffer.val

@[simp] theorem View.length_bytes (v : View) (byte : Nat → UInt8) : (v.bytes byte).length = v.len := by
  simp [View.bytes]

/-- A range that is not empty is known by its contents. -/
theorem View.eq_of_bytes {v w : View} (h : ∀ byte, v.bytes byte = w.bytes byte) (hw : w.len ≠ 0) :
    v = w := by
  have hlen : v.len = w.len := by
    have := congrArg List.length (h fun _ => 0)
    simpa using this
  -- a memory that is zero except at the first address of `w`
  have hhead := congrArg (fun l => l[0]?) (h fun a => if a = w.start then 1 else 0)
  have hv : 0 < v.len := by omega
  have hw' : 0 < w.len := by omega
  simp only [View.bytes, List.getElem?_map, List.getElem?_range hv, List.getElem?_range hw',
    Option.map_some, Nat.add_zero, if_true, Option.some.injEq] at hhead
  have hstart : v.start = w.start := by
    by_contra hne
    rw [if_neg hne] at hhead
    exact absurd hhead (by decide)
  obtain ⟨start, len⟩ := v
  obtain rfl := hlen
  obtain rfl := hstart
  rfl

/-! ## Views handed to a closure -/

/-- A closure that is invoked gets the contents of `v`. -/
def Upcall.Hands (v : View) (byte : Nat → UInt8) : Upcall → Prop
  | .invoke _ frame => frame.data = v.bytes byte
  | _ => True

/-- In the completion, a closure gets the contents of `v` and nothing else, whatever the memory
holds. -/
def Hands (s : FfiState) (c : Completion) (v : View) : Prop :=
  ∀ byte, (complete s { c with byte := byte }).CallsOnly (Upcall.Hands v byte)

/-- What the completion hands to the closure is inside the buffer of its frame. -/
def ViewInside (s : FfiState) (c : Completion) : Prop :=
  ∀ box, s.frames.lookup c.slot = some box → ∃ v, Hands s c v ∧ v.Within box.val.buffer

/-- So it is in every completion of a run. -/
def ViewsInside : FfiState → List Completion → Prop
  | _, [] => True
  | s, c :: cs => ViewInside s c ∧ ViewsInside (s.fill c.slot c.filled) cs

/-- The SDK places the image into the buffer of the frame, or reports none. -/
def Placed (s : FfiState) (c : Completion) : Prop :=
  ∀ box, s.frames.lookup c.slot = some box → c.filled.imageData = 0 ∨
    box.val.buffer.addr ≤ c.filled.imageData ∧
      c.filled.imageData < box.val.buffer.addr + box.val.buffer.val

/-- If the frame is complete and has a closure, its image starts with its buffer, or there is
none. -/
def AtBase (s : FfiState) (c : Completion) : Prop :=
  ∀ box f, s.frames.lookup c.slot = some box → box.val.callback = some f →
    c.filled.receiveStatus = 0 →
      c.filled.imageData = 0 ∨ c.filled.imageData = box.val.buffer.addr

/-! ## Buffers -/

/-- Every descriptor names its buffer and its size, as `TrampolineContext::new` wrote them. -/
def BuffersOk (s : FfiState) : Prop :=
  ∀ slot box, s.frames.lookup slot = some box →
    box.val.frame.buffer = box.val.buffer.addr ∧ box.val.frame.bufferSize.toNat = box.val.buffer.val

/-- **A port call keeps the buffers of the descriptors.** -/
theorem Step.buffersOk {s s' : FfiState} {c : PortCall} {evs : List (Event VmbC)} {r : c.Resp}
    (h : Step s c evs r s') (hs : BuffersOk s) : BuffersOk s' := by
  cases h with
  | announced h size raw hraw =>
      intro slot box hb
      rcases lookup_insert_eq_some.mp hb with ⟨-, rfl⟩ | ⟨-, hb⟩
      · exact ⟨rfl, rfl⟩
      · exact hs slot box hb
  | queued h slot cb raw f box rc hraw hcb hslot =>
      intro slot' box' hb
      rcases lookup_insert_eq_some.mp hb with ⟨-, rfl⟩ | ⟨-, hb⟩
      · exact hs slot box hslot
      · exact hs slot' box' hb
  | revoked h raw rc hraw =>
      intro slot box hb
      simp at hb
  | _ => exact fun slot box hb => hs slot box hb

/-- A filled frame is an old frame with its buffer and closure. -/
theorem FfiState.lookup_fill_buffer {s : FfiState} {slot slot' : FrameSlotId} {w : Filled}
    {box' : Box TrampolineContext} (h : (s.fill slot w).frames.lookup slot' = some box') :
    ∃ box, s.frames.lookup slot' = some box ∧ box'.val.buffer = box.val.buffer ∧
      box'.val.callback = box.val.callback ∧ box'.val.frame.buffer = box.val.frame.buffer ∧
      box'.val.frame.bufferSize = box.val.frame.bufferSize := by
  unfold fill at h
  rcases hslot : s.frames.lookup slot with - | box <;> rw [hslot] at h
  · exact ⟨box', h, rfl, rfl, rfl, rfl⟩
  · rcases lookup_insert_eq_some.mp h with ⟨rfl, rfl⟩ | ⟨-, h⟩
    · exact ⟨box, hslot, rfl, rfl, rfl, rfl⟩
    · exact ⟨box', h, rfl, rfl, rfl, rfl⟩

/-- **So does a completion.** -/
theorem BuffersOk.fill {s : FfiState} (hs : BuffersOk s) (slot : FrameSlotId) (w : Filled) :
    BuffersOk (s.fill slot w) := by
  intro slot' box' hb
  obtain ⟨box, hb, hbuffer, -, haddr, hsize⟩ := FfiState.lookup_fill_buffer hb
  rw [hbuffer, haddr, hsize]
  exact hs slot' box hb

theorem Reachable.buffersOk {s : FfiState} (h : Reachable s) : BuffersOk s := by
  induction h with
  | new => intro slot box hb; simp [FfiState.new] at hb
  | call api t c h ih => exact (vmbFfiRuntime_sdkCalls api _ c).buffersOk ih
  | completed c h ih => exact ih.fill c.slot c.filled

/-! ## One completion -/

/-- The pointer and the length of `data_slice`. -/
def dataView (frame : VmbFrame) : View where
  start := frame.imageData
  len := if frame.imageData = 0 ∨ frame.bufferSize.toNat = 0 then 0 else frame.bufferSize.toNat

theorem bytes_dataView (mem : Memory) (frame : VmbFrame) :
    (dataView frame).bytes mem.byte = dataSlice mem frame := by
  unfold dataView dataSlice View.bytes
  split <;> rfl

section Completions

variable {s : FfiState} {c : Completion} {box : Box TrampolineContext}

/-- The data a closure sees are those of the slice. -/
theorem frameSeen_data (byte : Nat → UInt8) (hostTsNs : UInt64) :
    (frameSeen { c with byte := byte } box hostTsNs).data =
      (dataView (box.val.frame.fill c.filled)).bytes byte :=
  (bytes_dataView ⟨fun _ => none, byte⟩ (box.val.frame.fill c.filled)).symm

/-- Queueing a frame again invokes no closure. -/
theorem requeue_hands (v : View) (byte : Nat → UInt8) (h : VmbHandle) (ptr : Nat) :
    (requeue h ptr).CallsOnly (Upcall.Hands v byte) :=
  ⟨trivial, fun _ => trivial⟩

/-- The trampoline hands on the slice. -/
theorem hands_dataView (hs : ContextsOk s) (hbox : s.frames.lookup c.slot = some box) :
    Hands s c (dataView (box.val.frame.fill c.filled)) := by
  intro byte
  rw [complete_eq hs (c := { c with byte := byte }) hbox]
  by_cases hstatus : c.filled.receiveStatus = 0
  · rw [if_pos hstatus]
    refine ⟨trivial, fun hostTsNs => ?_⟩
    rcases box.val.callback with - | f
    · exact requeue_hands _ _ _ _
    · refine ⟨frameSeen_data byte hostTsNs, fun r => ?_⟩
      rcases r with ⟨⟨⟩⟩ | m
      · exact requeue_hands _ _ _ _
      · trivial
  · rw [if_neg hstatus]
    exact requeue_hands _ _ _ _

/-- A closure that gets a complete frame gets the slice. -/
theorem bytes_of_hands (hs : ContextsOk s) (hbox : s.frames.lookup c.slot = some box)
    {f : FrameCallback} (hf : box.val.callback = some f) (hstatus : c.filled.receiveStatus = 0)
    {v : View} (hv : Hands s c v) (byte : Nat → UInt8) :
    v.bytes byte = (dataView (box.val.frame.fill c.filled)).bytes byte := by
  have hcalls := hv byte
  rw [complete_eq hs (c := { c with byte := byte }) hbox, if_pos hstatus, hf] at hcalls
  exact ((hcalls.2 0).1 : _ = _).symm.trans (frameSeen_data byte 0)

/-- The slice may be handed on if it is inside the buffer. -/
theorem viewInside_of_within (hs : ContextsOk s) (hbox : s.frames.lookup c.slot = some box)
    (h : (dataView (box.val.frame.fill c.filled)).Within box.val.buffer) : ViewInside s c := by
  intro box' hbox'
  rw [hbox] at hbox'
  cases hbox'
  exact ⟨_, hands_dataView hs hbox, h⟩

/-- A completion in which no closure is invoked hands on nothing. -/
theorem viewInside_of_quiet (hs : ContextsOk s) (hbox : s.frames.lookup c.slot = some box)
    (h : c.filled.receiveStatus ≠ 0 ∨ box.val.callback = none) : ViewInside s c := by
  intro box' hbox'
  rw [hbox] at hbox'
  cases hbox'
  refine ⟨⟨0, 0⟩, fun byte => ?_, Or.inl rfl⟩
  rw [complete_eq hs (c := { c with byte := byte }) hbox]
  by_cases hstatus : c.filled.receiveStatus = 0
  · rw [if_pos hstatus, h.resolve_left (fun hne => hne hstatus)]
    exact ⟨trivial, fun hostTsNs => requeue_hands _ _ _ _⟩
  · rw [if_neg hstatus]
    exact requeue_hands _ _ _ _

/-- The slice is inside the buffer exactly if it starts with it, or is empty. -/
theorem within_dataView_iff (hs : BuffersOk s) (hbox : s.frames.lookup c.slot = some box)
    (hplaced : Placed s c) :
    (dataView (box.val.frame.fill c.filled)).Within box.val.buffer ↔
      c.filled.imageData = 0 ∨ c.filled.imageData = box.val.buffer.addr := by
  obtain ⟨-, hsize⟩ := hs c.slot box hbox
  have hview : dataView (box.val.frame.fill c.filled) = ⟨c.filled.imageData,
      if c.filled.imageData = 0 ∨ box.val.buffer.val = 0 then 0 else box.val.buffer.val⟩ := by
    rw [← hsize]
    rfl
  rw [hview]
  unfold View.Within
  rcases hplaced box hbox with hnull | ⟨hlow, hhigh⟩
  · simp [hnull]
  · by_cases hnull : c.filled.imageData = 0
    · simp [hnull]
    · have hpos : box.val.buffer.val ≠ 0 := by omega
      simp only [hnull, hpos, or_self, if_false, false_or]
      constructor
      · rintro ⟨-, hend⟩
        omega
      · intro hbase
        omega

/-- **What a closure sees is inside the buffer exactly if the image starts with it.** -/
theorem viewInside_iff (hs : ContextsOk s) (hbuffers : BuffersOk s) (hplaced : Placed s c) :
    ViewInside s c ↔ AtBase s c := by
  rcases hbox : s.frames.lookup c.slot with - | box
  · refine iff_of_true (fun box hb => ?_) fun box f hb => ?_ <;>
    · rw [hbox] at hb
      cases hb
  constructor
  · intro hinside box' f hb hf hstatus
    rw [hbox] at hb
    cases hb
    obtain ⟨v, hhands, hwithin⟩ := hinside box hbox
    apply (within_dataView_iff hbuffers hbox hplaced).mp
    by_cases hlen : (dataView (box.val.frame.fill c.filled)).len = 0
    · exact Or.inl hlen
    -- the closure sees something, which tells the range
    · have heq := View.eq_of_bytes (bytes_of_hands hs hbox hf hstatus hhands) hlen
      exact heq ▸ hwithin
  · intro hbase
    by_cases hquiet : c.filled.receiveStatus ≠ 0 ∨ box.val.callback = none
    · exact viewInside_of_quiet hs hbox hquiet
    · rw [not_or, not_not] at hquiet
      obtain ⟨hstatus, hcallback⟩ := hquiet
      obtain ⟨f, hf⟩ := Option.ne_none_iff_exists'.mp hcallback
      exact viewInside_of_within hs hbox
        ((within_dataView_iff hbuffers hbox hplaced).mpr (hbase box f hbox hf hstatus))

/-- A completion changes neither the buffer nor the closure of a frame. -/
theorem placed_fill {c' : Completion} (h : Placed s c') : Placed (s.fill c.slot c.filled) c' := by
  intro box' hb
  obtain ⟨box, hb, hbuffer, -⟩ := FfiState.lookup_fill_buffer hb
  rw [hbuffer]
  exact h box hb

theorem FfiState.exists_lookup_fill (slot : FrameSlotId) (w : Filled) {slot' : FrameSlotId}
    (h : s.frames.lookup slot' = some box) :
    ∃ box', (s.fill slot w).frames.lookup slot' = some box' ∧
      box'.val.buffer = box.val.buffer ∧ box'.val.callback = box.val.callback := by
  rcases hslot : s.frames.lookup slot with - | old
  · refine ⟨box, ?_, rfl, rfl⟩
    unfold fill
    rw [hslot]
    exact h
  · rw [FfiState.fill_eq hslot]
    rcases eq_or_ne slot' slot with rfl | hne
    · rw [h] at hslot
      cases hslot
      exact ⟨box.fill w, Finmap.lookup_insert _, rfl, rfl⟩
    · exact ⟨box, (Finmap.lookup_insert_of_ne _ hne).trans h, rfl, rfl⟩

theorem atBase_fill {c' : Completion} : AtBase (s.fill c.slot c.filled) c' ↔ AtBase s c' := by
  constructor
  · intro h box f hb hf hstatus
    obtain ⟨box', hb', hbuffer, hcallback⟩ :=
      FfiState.exists_lookup_fill c.slot c.filled hb
    rw [← hbuffer]
    exact h box' f hb' (hcallback.trans hf) hstatus
  · intro h box' f hb hf hstatus
    obtain ⟨box, hb, hbuffer, hcallback, -⟩ := FfiState.lookup_fill_buffer hb
    rw [hbuffer]
    exact h box f hb (hcallback.symm.trans hf) hstatus

end Completions

/-! ## Runs -/

/-- **The closures see bytes of their own buffers only, exactly if every complete image starts with
its buffer.** In every reachable state, and for every run of completions that place their images
into the buffers. -/
theorem viewsInside_iff {s : FfiState} (hs : Reachable s) (cs : List Completion)
    (hplaced : ∀ c ∈ cs, Placed s c) : ViewsInside s cs ↔ ∀ c ∈ cs, AtBase s c := by
  induction cs generalizing s with
  | nil => exact iff_of_true trivial fun c hc => absurd hc List.not_mem_nil
  | cons c cs ih =>
      rw [List.forall_mem_cons] at hplaced ⊢
      have hrest := ih (.completed c hs) fun c' hc' => placed_fill (hplaced.2 c' hc')
      refine and_congr (viewInside_iff hs.contextsOk hs.buffersOk hplaced.1) (hrest.trans ?_)
      exact forall₂_congr fun c' _ => atBase_fill

/-- The one frame is completed with its image at the address. -/
def completeAt (imageData : Nat) : Completion :=
  { completeOne 0 (.returned ()) with filled := ⟨0, 1, imageData, 0x01080001, 32, 32⟩ }

theorem placed_completeAt {imageData : Nat} (h : 1 ≤ imageData ∧ imageData < 1025) :
    Placed oneFrame.state (completeAt imageData) := by
  intro box hbox
  have hsame : some oneBox = some box := oneFrame_lookup.symm.trans hbox
  obtain rfl := Option.some.inj hsame
  exact Or.inr h

theorem viewsInside_iff_oneFrame :
    ViewsInside oneFrame.state [completeAt 1] ↔ ∀ c ∈ [completeAt 1], AtBase oneFrame.state c :=
  viewsInside_iff oneFrame_reachable [completeAt 1]
    (List.forall_mem_singleton.mpr (placed_completeAt (by decide)))

/-- An image after a header of 64 bytes is seen 64 bytes beyond the end of its buffer. -/
theorem not_viewsInside_header :
    Reachable oneFrame.state ∧ Placed oneFrame.state (completeAt 65) ∧
      Hands oneFrame.state (completeAt 65) ⟨65, 1024⟩ ∧ oneBox.val.buffer = ⟨1, 1024⟩ ∧
      ¬ ViewsInside oneFrame.state [completeAt 65] := by
  have hplaced : Placed oneFrame.state (completeAt 65) := placed_completeAt (by decide)
  refine ⟨oneFrame_reachable, hplaced, ?_, rfl, fun hinside => ?_⟩
  · have hview : dataView (oneBox.val.frame.fill (completeAt 65).filled) = ⟨65, 1024⟩ := by
      decide +kernel
    rw [← hview]
    exact hands_dataView oneFrame_reachable.contextsOk oneFrame_lookup
  · have hbase := (viewInside_iff oneFrame_reachable.contextsOk oneFrame_reachable.buffersOk
      hplaced).mp hinside.1
    rcases hbase oneBox ⟨7⟩ oneFrame_lookup rfl rfl with hnull | hstart
    · exact absurd hnull (by decide)
    · exact absurd hstart (by decide)

end Vmb.Ffi

/-
# Vmb.Ffi.Enumeration -- listing the cameras

`list_cameras` asks the SDK twice: how many cameras there are, and then for their entries, into a
buffer of that many slots. The inventory may change in between. The buffer is cut to the number the
second call found, so the result has exactly the entries the SDK filled in, in their order
(`listCameras_enumerates`), and the id of an entry opens the camera under the bytes the SDK gave.
-/
import Vmb.Ffi.Step

namespace Vmb.Ffi

open Vmb.Lib Vmb.Core Vmb.Sdk

/-! ## The inventory -/

/-- What an entry shows for a field of the inventory: the text, or `<unknown>` for a null pointer and
for bytes that are not UTF-8. -/
def Shows (field : Option CString) (text : String) : Prop :=
  (∃ c, field = some c ∧ c.1 = bytes text) ∨
    text = "<unknown>" ∧ ∀ c, field = some c → fromUtf8 c.1 = none

/-- An entry of the result for an entry of the inventory. -/
structure EntryOf (raw : VmbCameraInfo) (info : CameraInfo) : Prop where
  id : Shows raw.cameraIdString info.id
  model : Shows raw.modelName info.model
  serial : Shows raw.serialString info.serial
  name : Shows raw.cameraName info.name

/-- The populating call sees the inventory `inv` and fills a buffer of `n` slots from its start. -/
structure Populates (n : UInt32) (inv : List VmbCameraInfo) (a : CamerasListAnswer) : Prop where
  numFound : a.rc = 0 → a.numFound.toNat = inv.length
  filled : a.rc = 0 → a.filled = inv.take n.toNat

theorem shows_cstrToOwned (field : Option CString) : Shows field (cstrToOwned field "<unknown>") := by
  rcases field with - | c
  · exact Or.inr ⟨rfl, fun c hc => by cases hc⟩
  · show Shows (some c) ((fromUtf8 c.1).getD "<unknown>")
    rcases hdecode : fromUtf8 c.1 with - | text
    · refine Or.inr ⟨rfl, fun c' hc => ?_⟩
      cases hc
      exact hdecode
    · exact Or.inl ⟨c, rfl, (fromUtf8_eq_some_iff.mp hdecode).symm⟩

theorem entryOf_cameraInfo (raw : VmbCameraInfo) : EntryOf raw (FfiState.cameraInfo raw) where
  id := shows_cstrToOwned _
  model := shows_cstrToOwned _
  serial := shows_cstrToOwned _
  name := shows_cstrToOwned _

/-! ## The two calls -/

section

variable {τ : Type} (api : VmbApi τ) (s : FfiState) (t : τ)

/-- The answer to the size query. -/
def queryAnswer : CamerasListAnswer := (api t (.vmbCamerasList 0)).1

/-- The answer to the populating call. -/
def populateAnswer : CamerasListAnswer :=
  (api (api t (.vmbCamerasList 0)).2 (.vmbCamerasList (queryAnswer api t).numFound)).1

def queryEvent : Event VmbC := ⟨.vmbCamerasList 0, queryAnswer api t⟩

def populateEvent : Event VmbC :=
  ⟨.vmbCamerasList (queryAnswer api t).numFound, populateAnswer api t⟩

/-- The entries made of the buffer after the populating call. -/
def entries (n : UInt32) (a : CamerasListAnswer) : List CameraInfo :=
  ((writtenTo (List.replicate n.toNat VmbCameraInfo.zeroed) a.filled).take a.numFound.toNat).map
    FfiState.cameraInfo

/-- What `list_cameras` does with the answer to the size query. -/
def afterQuery (q : CamerasListAnswer) : SdkM (Result (List CameraInfo) × FfiState) :=
  match check q.rc with
  | .error e => pure (.error e, s)
  | .ok () =>
    if q.numFound = 0 then pure (.ok [], s)
    else do
      let a ← vmb (.vmbCamerasList q.numFound)
      match check a.rc with
      | .error e => pure (.error e, s)
      | .ok () => pure (.ok (entries q.numFound a), s)

theorem listCameras_eq : s.listCameras = (vmb (.vmbCamerasList 0) >>= fun q => afterQuery s q) := by
  unfold FfiState.listCameras
  refine congrArg (Prog.call (S := VmbC) _) (funext fun (q : CamerasListAnswer) => ?_)
  show _ = afterQuery s q
  unfold afterQuery entries
  rfl

theorem afterQuery_of_ne {q : CamerasListAnswer} (h : q.rc ≠ 0) :
    afterQuery s q = .done (.error (sdkError q.rc), s) := by
  unfold afterQuery
  rw [check_of_ne h]
  rfl

theorem afterQuery_none {q : CamerasListAnswer} (h : q.rc = 0) (hzero : q.numFound = 0) :
    afterQuery s q = .done (.ok [], s) := by
  unfold afterQuery
  rw [h]
  exact if_pos hzero

theorem afterQuery_some {q : CamerasListAnswer} (h : q.rc = 0) (hzero : q.numFound ≠ 0) :
    afterQuery s q = .call (S := VmbC) (.vmbCamerasList q.numFound) fun a : CamerasListAnswer =>
      .done ((check a.rc).map fun _ => entries q.numFound a, s) := by
  unfold afterQuery
  rw [h]
  refine (if_neg hzero).trans (congrArg (Prog.call (S := VmbC) _) (funext fun a => ?_))
  show (match check (CamerasListAnswer.rc a) with | .error e => _ | .ok () => _ : SdkM _) = _
  rcases check (CamerasListAnswer.rc a) with e | ⟨⟩ <;> rfl

theorem sdkCalls_listCameras : sdkCalls api (s, t) .listCameras =
    queryEvent api t ::
      ((afterQuery s (queryAnswer api t)).history api (api t (.vmbCamerasList 0)).2).map Prod.snd := by
  show (s.listCameras.history api t).map Prod.snd = _
  rw [listCameras_eq]
  rfl

theorem vmbFfiRuntime_listCameras : (vmbFfiRuntime api (s, t) .listCameras).1 =
    ((afterQuery s (queryAnswer api t)).run api (api t (.vmbCamerasList 0)).2).1.1 := by
  show (s.listCameras.run api t).1.1 = _
  rw [listCameras_eq]
  rfl

/-- The three ways `list_cameras` goes. -/
theorem listCameras_cases :
    ((queryAnswer api t).rc ≠ 0 ∧ sdkCalls api (s, t) .listCameras = [queryEvent api t] ∧
      (vmbFfiRuntime api (s, t) .listCameras).1 = .error (sdkError (queryAnswer api t).rc)) ∨
    ((queryAnswer api t).rc = 0 ∧ (queryAnswer api t).numFound = 0 ∧
      sdkCalls api (s, t) .listCameras = [queryEvent api t] ∧
      (vmbFfiRuntime api (s, t) .listCameras).1 = .ok []) ∨
    ((queryAnswer api t).rc = 0 ∧ (queryAnswer api t).numFound ≠ 0 ∧
      sdkCalls api (s, t) .listCameras = [queryEvent api t, populateEvent api t] ∧
      (vmbFfiRuntime api (s, t) .listCameras).1 =
        (check (populateAnswer api t).rc).map fun _ =>
          entries (queryAnswer api t).numFound (populateAnswer api t)) := by
  rw [sdkCalls_listCameras, vmbFfiRuntime_listCameras]
  by_cases hrc : (queryAnswer api t).rc = 0
  · by_cases hzero : (queryAnswer api t).numFound = 0
    · rw [afterQuery_none s hrc hzero]
      exact Or.inr (Or.inl ⟨hrc, hzero, rfl, rfl⟩)
    · rw [afterQuery_some s hrc hzero]
      exact Or.inr (Or.inr ⟨hrc, hzero, rfl, rfl⟩)
  · rw [afterQuery_of_ne s hrc]
    exact Or.inl ⟨hrc, rfl, rfl⟩

end

/-- The buffer, cut to the number found, holds what was filled in. -/
theorem entries_eq {n : UInt32} {inv : List VmbCameraInfo} {a : CamerasListAnswer}
    (h : Populates n inv a) (hrc : a.rc = 0) :
    entries n a = (inv.take n.toNat).map FfiState.cameraInfo := by
  have hbuf : (writtenTo (List.replicate n.toNat VmbCameraInfo.zeroed) (inv.take n.toNat)).take
      inv.length = inv.take n.toNat := by
    rw [writtenTo, List.length_replicate, List.take_take, min_self]
    rcases Nat.le_total inv.length n.toNat with hle | hle
    · -- fewer cameras than slots: the rest of the buffer is cut off
      rw [List.take_of_length_le hle, List.take_left]
    · have hfull : (inv.take n.toNat).length = n.toNat := List.length_take_of_le hle
      rw [hfull, List.drop_replicate, Nat.sub_self, List.replicate_zero, List.append_nil,
        List.take_of_length_le (hfull.le.trans hle)]
  rw [entries, h.filled hrc, h.numFound hrc, hbuf]

/-! ## The result -/

/-- The id of the entry opens the camera under the bytes of the inventory, if these are UTF-8. -/
def Reopens (raw : VmbCameraInfo) (info : CameraInfo) : Prop :=
  ∀ c, raw.cameraIdString = some c → (fromUtf8 c.1).isSome → ∀ {τ : Type} (api : VmbApi τ) s t,
    (sdkCalls api (s, t) (.openCamera info.id)).map Event.call =
      [.vmbCameraOpen c vmbAccessModeFull]

theorem EntryOf.reopens {raw : VmbCameraInfo} {info : CameraInfo} (h : EntryOf raw info) :
    Reopens raw info := by
  intro c hc hutf8 τ api s t
  rcases h.id with ⟨c', hc', hbytes⟩ | ⟨-, hnone⟩
  · obtain rfl : c = c' := Option.some.inj (hc.symm.trans hc')
    apply sdkCalls_openCamera
    rw [← hbytes]
    exact CString.new_eq_some c.2
  · rw [hnone c hc] at hutf8
    cases hutf8

/-- What one call of `list_cameras` does, when the populating call sees the inventory `inv`. -/
structure Enumerates {τ : Type} (api : VmbApi τ) (s : FfiState) (t : τ) (inv : List VmbCameraInfo) :
    Prop where
  /-- The second call is made exactly if the first one finds cameras. -/
  calls : (sdkCalls api (s, t) .listCameras).map Event.call =
    if (queryAnswer api t).rc = 0 ∧ 0 < (queryAnswer api t).numFound.toNat then
      [.vmbCamerasList 0, .vmbCamerasList (queryAnswer api t).numFound]
    else [.vmbCamerasList 0]
  /-- It fails exactly if an SDK call fails. -/
  fails : (∃ e, (vmbFfiRuntime api (s, t) .listCameras).1 = .error e) ↔
    ∃ ev ∈ sdkCalls api (s, t) .listCameras, code ev ≠ 0
  /-- Otherwise the result is the filled slots, in their order. -/
  length : ∀ cams, (vmbFfiRuntime api (s, t) .listCameras).1 = .ok cams →
    cams.length = min (queryAnswer api t).numFound.toNat inv.length
  entry : ∀ cams, (vmbFfiRuntime api (s, t) .listCameras).1 = .ok cams →
    ∀ (i : Nat) raw info, inv[i]? = some raw → cams[i]? = some info → EntryOf raw info ∧ Reopens raw info

/-- The slots of the buffer the SDK filled in make the result. -/
theorem entry_map {inv : List VmbCameraInfo} {n i : Nat} {raw : VmbCameraInfo} {info : CameraInfo}
    (hraw : inv[i]? = some raw) (hinfo : ((inv.take n).map FfiState.cameraInfo)[i]? = some info) :
    EntryOf raw info := by
  rw [List.getElem?_map, List.getElem?_take] at hinfo
  split at hinfo
  · rw [hraw] at hinfo
    cases hinfo
    exact entryOf_cameraInfo raw
  · cases hinfo

/-- A successful result has the entries of the filled slots. -/
theorem listCameras_ok {τ : Type} {api : VmbApi τ} {s : FfiState} {t : τ} {inv : List VmbCameraInfo}
    (hinv : (queryAnswer api t).numFound ≠ 0 →
      Populates (queryAnswer api t).numFound inv (populateAnswer api t)) {cams : List CameraInfo}
    (hok : (vmbFfiRuntime api (s, t) .listCameras).1 = .ok cams) :
    cams = (inv.take (queryAnswer api t).numFound.toNat).map FfiState.cameraInfo := by
  rcases listCameras_cases api s t with ⟨-, -, hresult⟩ | ⟨-, hzero, -, hresult⟩ |
    ⟨-, hsome, -, hresult⟩
  · cases hresult.symm.trans hok
  · cases hresult.symm.trans hok
    rw [hzero]
    rfl
  · by_cases hrc : (populateAnswer api t).rc = 0
    · rw [hrc] at hresult
      cases hresult.symm.trans hok
      exact entries_eq (hinv hsome) hrc
    · rw [check_of_ne hrc] at hresult
      cases hresult.symm.trans hok

/-- **Enumeration loses and invents nothing**, for every number of cameras the size query reports,
every inventory the populating call sees, and all return codes. -/
theorem listCameras_enumerates {τ : Type} (api : VmbApi τ) (s : FfiState) (t : τ)
    (inv : List VmbCameraInfo) (hinv : (queryAnswer api t).numFound ≠ 0 →
      Populates (queryAnswer api t).numFound inv (populateAnswer api t)) :
    Enumerates api s t inv where
  calls := by
    rcases listCameras_cases api s t with ⟨hrc, hcalls, -⟩ | ⟨-, hzero, hcalls, -⟩ |
      ⟨hrc, hsome, hcalls, -⟩
    · rw [hcalls, if_neg fun h => hrc h.1]
      rfl
    · rw [hcalls, hzero, if_neg fun h => absurd h.2 (by decide)]
      rfl
    · have hpos : 0 < (queryAnswer api t).numFound.toNat :=
        Nat.pos_of_ne_zero fun h => hsome (UInt32.toNat_inj.mp h)
      rw [hcalls, if_pos ⟨hrc, hpos⟩]
      rfl
  fails := by
    rcases listCameras_cases api s t with ⟨hrc, hcalls, hresult⟩ | ⟨hrc, -, hcalls, hresult⟩ |
      ⟨hrc, -, hcalls, hresult⟩
    · rw [hcalls, hresult]
      exact ⟨fun _ => ⟨_, List.mem_cons_self, hrc⟩, fun _ => ⟨_, rfl⟩⟩
    · rw [hcalls, hresult]
      simp only [List.mem_singleton, exists_eq_left, reduceCtorEq, exists_false, false_iff, not_not]
      exact hrc
    · have hquery : code (queryEvent api t) = 0 := hrc
      have hpopulate : code (populateEvent api t) = (populateAnswer api t).rc := rfl
      rw [hcalls, hresult]
      simp only [List.mem_cons, List.not_mem_nil, or_false, exists_eq_or_imp, exists_eq_left, hquery,
        hpopulate, ne_eq, not_true_eq_false, false_or]
      by_cases hrc' : (populateAnswer api t).rc = 0
      · rw [hrc']
        constructor
        · rintro ⟨e, he⟩
          cases he
        · exact fun h => absurd rfl h
      · rw [check_of_ne hrc']
        exact ⟨fun _ => hrc', fun _ => ⟨_, rfl⟩⟩
  length cams hok := by
    rw [listCameras_ok hinv hok, List.length_map, List.length_take]
  entry cams hok i raw info hraw hinfo := by
    rw [listCameras_ok hinv hok] at hinfo
    have hentry := entry_map hraw hinfo
    exact ⟨hentry, hentry.reopens⟩

/-- An SDK whose inventory is the first list in the next call and the second one afterwards. -/
def inventoryApi : VmbApi (List VmbCameraInfo × List VmbCameraInfo) := fun t c =>
  match c with
  | .vmbCamerasList n => (⟨0, UInt32.ofNat t.1.length, t.1.take n.toNat⟩, (t.2, t.2))
  | c => ((mockApi 1 c).1, t)

/-- A camera with an id in UTF-8 and a model name that is not. -/
def plugged : VmbCameraInfo where
  cameraIdString := some ⟨[0x44, 0xC3, 0x9C], by decide⟩
  modelName := some ⟨[0xFF], by decide⟩

/-- One of two cameras is unplugged between the two calls. -/
theorem listCameras_enumerates_unplugged :
    Enumerates inventoryApi .new ([{}, plugged], [plugged]) [plugged] ∧
      (vmbFfiRuntime inventoryApi (.new, ([{}, plugged], [plugged])) .listCameras).1 =
        .ok [⟨"DÜ", "<unknown>", "<unknown>", "<unknown>"⟩] ∧
      Reopens plugged ⟨"DÜ", "<unknown>", "<unknown>", "<unknown>"⟩ := by
  have hlisted : (vmbFfiRuntime inventoryApi (.new, ([{}, plugged], [plugged])) .listCameras).1 =
      .ok [⟨"DÜ", "<unknown>", "<unknown>", "<unknown>"⟩] := by decide +kernel
  have henumerates := listCameras_enumerates inventoryApi .new ([{}, plugged], [plugged]) [plugged]
    fun _ => ⟨fun _ => rfl, fun _ => rfl⟩
  exact ⟨henumerates, hlisted, (henumerates.entry _ hlisted 0 plugged _ rfl rfl).2⟩

end Vmb.Ffi

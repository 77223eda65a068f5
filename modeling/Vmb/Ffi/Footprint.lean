/-
# Vmb.Ffi.Footprint -- the steps of each port method

Most contracts on atomic steps are about a few tables and a few SDK functions. `Makes c` lists the
steps the method `c` may make, so a method that makes no step a contract is about keeps the contract
with nothing said about it (`steps_quiet`).
-/
import Vmb.Ffi.Atomic

namespace Vmb.Ffi

open Vmb.Lib Vmb.Core Vmb.Sdk

/-- The method `c` may make the step. -/
inductive Makes : PortCall → AtomicStep → Prop where
  -- Lifecycle
  | startupExchange : Makes .startup (.access .compareExchange)
  | vmbStartup : Makes .startup (.sdk .vmbStartup)
  | startupStore : Makes .startup (.access .store)
  | shutdownSwap : Makes .shutdown (.access .swap)
  | vmbShutdown : Makes .shutdown (.sdk .vmbShutdown)
  -- Cameras
  | vmbCamerasList {n} : Makes .listCameras (.sdk (.vmbCamerasList n))
  | vmbCameraOpen {id cId mode} : Makes (.openCamera id) (.sdk (.vmbCameraOpen cId mode))
  | openId {id} : Makes (.openCamera id) (.access .fetchAdd)
  | insertCamera {id h raw} : Makes (.openCamera id) (.access (.insertCamera h raw))
  | removeCamera {h} : Makes (.closeCamera h) (.access (.removeCamera h))
  | vmbCameraClose {h raw} : Makes (.closeCamera h) (.sdk (.vmbCameraClose raw))
  | loadResolve {h path} : Makes (.loadSettings h path) (.access (.getCamera h))
  | vmbSettingsLoad {h path raw cPath} :
      Makes (.loadSettings h path) (.sdk (.vmbSettingsLoad raw cPath))
  | runResolve {h name} : Makes (.runFeatureCommand h name) (.access (.getCamera h))
  | vmbFeatureCommandRun {h name raw cmd} :
      Makes (.runFeatureCommand h name) (.sdk (.vmbFeatureCommandRun raw cmd))
  -- Capture
  | payloadResolve {h} : Makes (.payloadSize h) (.access (.getCamera h))
  | vmbPayloadSizeGet {h raw} : Makes (.payloadSize h) (.sdk (.vmbPayloadSizeGet raw))
  | announceResolve {h size} : Makes (.announceFrame h size) (.access (.getCamera h))
  | newContext {h size} : Makes (.announceFrame h size) (.access (.newContext size))
  | vmbFrameAnnounce {h size raw ptr} :
      Makes (.announceFrame h size) (.sdk (.vmbFrameAnnounce raw ptr))
  | slotId {h size} : Makes (.announceFrame h size) (.access .fetchAdd)
  | insertFrame {h size slot ctx} : Makes (.announceFrame h size) (.access (.insertFrame slot ctx))
  | startResolve {h} : Makes (.captureStart h) (.access (.getCamera h))
  | vmbCaptureStart {h raw} : Makes (.captureStart h) (.sdk (.vmbCaptureStart raw))
  | queueResolve {h slot cb} : Makes (.queueFrame h slot cb) (.access (.getCamera h))
  | getFrameCallback {h slot cb} : Makes (.queueFrame h slot cb) (.access (.getFrameCallback cb))
  | patchFrame {h slot cb callback} :
      Makes (.queueFrame h slot cb) (.access (.patchFrame slot callback))
  | vmbCaptureFrameQueue {h slot cb raw ptr trampoline} :
      Makes (.queueFrame h slot cb) (.sdk (.vmbCaptureFrameQueue raw ptr trampoline))
  | endResolve {h} : Makes (.captureEnd h) (.access (.getCamera h))
  | vmbCaptureEnd {h raw} : Makes (.captureEnd h) (.sdk (.vmbCaptureEnd raw))
  | flushResolve {h} : Makes (.captureQueueFlush h) (.access (.getCamera h))
  | vmbCaptureQueueFlush {h raw} : Makes (.captureQueueFlush h) (.sdk (.vmbCaptureQueueFlush raw))
  | revokeResolve {h} : Makes (.frameRevokeAll h) (.access (.getCamera h))
  | vmbFrameRevokeAll {h raw} : Makes (.frameRevokeAll h) (.sdk (.vmbFrameRevokeAll raw))
  | clearFrames {h} : Makes (.frameRevokeAll h) (.access .clearFrames)
  -- Discovery
  | getDiscoveryCallback {cb} : Makes (.registerDiscovery cb) (.access (.getDiscoveryCallback cb))
  | intoRaw {cb ctx} : Makes (.registerDiscovery cb) (.access (.intoRaw ctx))
  | vmbRegister {cb handle feature trampoline ptr} : Makes (.registerDiscovery cb)
      (.sdk (.vmbFeatureInvalidationRegister handle feature trampoline ptr))
  | refuse {cb ptr} : Makes (.registerDiscovery cb) (.access (.fromRaw ptr))
  | regId {cb} : Makes (.registerDiscovery cb) (.access .fetchAdd)
  | insertReg {cb r reg} : Makes (.registerDiscovery cb) (.access (.insertReg r reg))
  | removeReg {r} : Makes (.unregisterDiscovery r) (.access (.removeReg r))
  | vmbUnregister {r handle feature trampoline} : Makes (.unregisterDiscovery r)
      (.sdk (.vmbFeatureInvalidationUnregister handle feature trampoline))
  | reclaim {r ptr} : Makes (.unregisterDiscovery r) (.access (.fromRaw ptr))
  -- Callback installation
  | frameCallbackId {cb} : Makes (.installFrameCallback cb) (.access .fetchAdd)
  | insertFrameCallback {cb id} :
      Makes (.installFrameCallback cb) (.access (.insertFrameCallback id cb))
  | removeFrameCallback {id} :
      Makes (.uninstallFrameCallback id) (.access (.removeFrameCallback id))
  | discoveryCallbackId {cb} : Makes (.installDiscoveryCallback cb) (.access .fetchAdd)
  | insertDiscoveryCallback {cb id} :
      Makes (.installDiscoveryCallback cb) (.access (.insertDiscoveryCallback id cb))
  | removeDiscoveryCallback {id} :
      Makes (.uninstallDiscoveryCallback id) (.access (.removeDiscoveryCallback id))

/-! ## Every method makes these steps only -/

section CallsOnly

variable {α : Type} {K : AtomicStep → Prop}

theorem callsOnly_access {c : Access} {f : c.Resp → Prog Steps α} (hc : K (.access c))
    (hf : ∀ r, (f r).CallsOnly K) : (access c >>= f).CallsOnly K := ⟨hc, hf⟩

theorem callsOnly_sdk {c : SdkCall} {f : c.Resp → Prog Steps α} (hc : K (.sdk c))
    (hf : ∀ r, (f r).CallsOnly K) : (sdk c >>= f).CallsOnly K := ⟨hc, hf⟩

theorem callsOnly_withCamera {h : CameraHandle} {k : VmbHandle → Prog Steps (Result α)}
    (hget : K (.access (.getCamera h))) (hk : ∀ raw, (k raw).CallsOnly K) :
    (Atomic.withCamera h k).CallsOnly K := by
  refine ⟨hget, fun found => ?_⟩
  cases found with
  | none => trivial
  | some raw => exact hk raw

theorem callsOnly_ifCamera {h : CameraHandle} {k : VmbHandle → Prog Steps Unit}
    (hget : K (.access (.getCamera h))) (hk : ∀ raw, (k raw).CallsOnly K) :
    (Atomic.ifCamera h k).CallsOnly K := by
  refine ⟨hget, fun found => ?_⟩
  cases found with
  | none => trivial
  | some raw => exact hk raw

end CallsOnly

theorem listCameras_makes : Atomic.listCameras.CallsOnly (Makes .listCameras) := by
  refine callsOnly_sdk .vmbCamerasList fun query => ?_
  cases check query.rc with
  | error e => trivial
  | ok _ =>
      dsimp only
      split
      · trivial
      · refine callsOnly_sdk .vmbCamerasList fun answer => ?_
        cases check answer.rc <;> trivial

theorem openCamera_makes (id : String) : (Atomic.openCamera id).CallsOnly (Makes (.openCamera id)) := by
  unfold Atomic.openCamera
  cases CString.new (bytes id) with
  | none => trivial
  | some cId =>
      refine callsOnly_sdk .vmbCameraOpen fun ⟨rc, handle⟩ => ?_
      dsimp only
      cases check rc with
      | error e => trivial
      | ok _ =>
          refine callsOnly_access .openId fun n => ?_
          by_cases hn : n ≠ 0
          · rw [dif_pos hn]
            exact callsOnly_access .insertCamera fun _ => trivial
          · rw [dif_neg hn]
            trivial

theorem queueFrame_makes (h : CameraHandle) (slot : FrameSlotId) (cb : FrameCallbackId) :
    (Atomic.queueFrame h slot cb).CallsOnly (Makes (.queueFrame h slot cb)) := by
  refine callsOnly_withCamera .queueResolve fun raw =>
    callsOnly_access .getFrameCallback fun callback => ?_
  cases callback with
  | none => trivial
  | some callback =>
      refine callsOnly_access .patchFrame fun framePtr => ?_
      cases framePtr with
      | none => trivial
      | some framePtr => exact callsOnly_sdk .vmbCaptureFrameQueue fun rc => trivial

theorem registerDiscovery_makes (cb : DiscoveryCallbackId) :
    (Atomic.registerDiscovery cb).CallsOnly (Makes (.registerDiscovery cb)) := by
  refine callsOnly_access .getDiscoveryCallback fun callback => ?_
  cases callback with
  | none => trivial
  | some callback =>
      dsimp only
      cases CString.new (bytes FfiState.featureEventCameraDiscovery) with
      | none => trivial
      | some feature =>
          refine callsOnly_access .intoRaw fun ctxPtr => callsOnly_sdk .vmbRegister fun rc => ?_
          cases check rc with
          | error e => exact callsOnly_access .refuse fun _ => trivial
          | ok _ =>
              exact callsOnly_access .regId fun handle => callsOnly_access .insertReg fun _ => trivial

/-- **A method makes the steps of its own footprint only.** -/
theorem steps_makes (c : PortCall) : (steps c).CallsOnly (Makes c) := by
  cases c with
  | startup =>
      refine ⟨.startupExchange, fun exchanged => ?_⟩
      cases exchanged with
      | false => trivial
      | true =>
          refine ⟨.vmbStartup, fun rc => ?_⟩
          dsimp only [Prog.bind]
          cases check rc with
          | error e => exact ⟨.startupStore, fun _ => trivial⟩
          | ok _ => trivial
  | shutdown =>
      refine ⟨.shutdownSwap, fun started => ?_⟩
      cases started with
      | false => trivial
      | true => exact ⟨.vmbShutdown, fun _ => trivial⟩
  | listCameras => exact listCameras_makes
  | openCamera id => exact openCamera_makes id
  | closeCamera h =>
      refine callsOnly_access .removeCamera fun raw => ?_
      cases raw with
      | none => trivial
      | some raw => exact callsOnly_sdk .vmbCameraClose fun rc => trivial
  | loadSettings h path =>
      refine callsOnly_withCamera .loadResolve fun raw => ?_
      cases CString.new (lossy path) with
      | none => trivial
      | some cPath => exact callsOnly_sdk .vmbSettingsLoad fun rc => trivial
  | runFeatureCommand h name =>
      refine callsOnly_withCamera .runResolve fun raw => ?_
      cases CString.new (bytes name) with
      | none => trivial
      | some cmd => exact callsOnly_sdk .vmbFeatureCommandRun fun rc => trivial
  | payloadSize h =>
      refine callsOnly_withCamera .payloadResolve fun raw =>
        callsOnly_sdk .vmbPayloadSizeGet fun ⟨rc, payload⟩ => ?_
      dsimp only
      cases check rc <;> trivial
  | announceFrame h size =>
      refine callsOnly_withCamera .announceResolve fun raw =>
        callsOnly_access .newContext fun ctx => callsOnly_sdk .vmbFrameAnnounce fun rc => ?_
      cases check rc with
      | error e => trivial
      | ok _ => exact callsOnly_access .slotId fun slot => callsOnly_access .insertFrame fun _ => trivial
  | captureStart h =>
      exact callsOnly_withCamera .startResolve fun raw =>
        callsOnly_sdk .vmbCaptureStart fun rc => trivial
  | queueFrame h slot cb => exact queueFrame_makes h slot cb
  | captureEnd h =>
      exact callsOnly_ifCamera .endResolve fun raw => callsOnly_sdk .vmbCaptureEnd fun rc => trivial
  | captureQueueFlush h =>
      exact callsOnly_ifCamera .flushResolve fun raw =>
        callsOnly_sdk .vmbCaptureQueueFlush fun rc => trivial
  | frameRevokeAll h =>
      exact callsOnly_ifCamera .revokeResolve fun raw =>
        callsOnly_sdk .vmbFrameRevokeAll fun rc => callsOnly_access .clearFrames fun _ => trivial
  | registerDiscovery cb => exact registerDiscovery_makes cb
  | unregisterDiscovery r =>
      refine callsOnly_access .removeReg fun reg => ?_
      cases reg with
      | none => trivial
      | some reg =>
          exact callsOnly_sdk .vmbUnregister fun rc => callsOnly_access .reclaim fun _ => trivial
  | installFrameCallback cb =>
      exact callsOnly_access .frameCallbackId fun id =>
        callsOnly_access .insertFrameCallback fun _ => trivial
  | uninstallFrameCallback id => exact ⟨.removeFrameCallback, fun _ => trivial⟩
  | installDiscoveryCallback cb =>
      exact callsOnly_access .discoveryCallbackId fun id =>
        callsOnly_access .insertDiscoveryCallback fun _ => trivial
  | uninstallDiscoveryCallback id => exact ⟨.removeDiscoveryCallback, fun _ => trivial⟩

/-! ## Contracts about other steps -/

section Quiet

variable {ν α : Type} {C : Contract Steps ν} {v : ν}

/-- A program whose steps leave the view as it is keeps it. -/
theorem meets_quiet {p : Prog Steps α} (h : p.CallsOnly fun c => C.pre v c ∧ ∀ r, C.next v c r = v) :
    p.Meets C (fun _ v' => v' = v) v := by
  induction p with
  | done a => rfl
  | call c k ih =>
      refine ⟨h.1.1, fun r => ?_⟩
      rw [h.1.2 r]
      exact ih r (h.2 r)

/-- **A method that makes no step the contract is about keeps the contract.** -/
theorem steps_quiet (c : PortCall)
    (h : ∀ step, Makes c step → C.pre v step ∧ ∀ r, C.next v step r = v) :
    (steps c).Meets C (fun _ v' => v' = v) v :=
  meets_quiet ((steps_makes c).mono h)

end Quiet

end Vmb.Ffi

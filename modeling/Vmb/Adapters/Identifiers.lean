/-
# Vmb.Adapters.Identifiers -- fresh identifiers

One counter feeds the five kinds of identifiers of an adapter, and an identifier goes into its table
some steps after its number was drawn. Threads call the port methods of one runtime in any
interleaving of their atomic steps, against any SDK. As long as fewer than `2^64 - 1` numbers are drawn
the identifiers are fresh (`identifiers_fresh`): issued once, whatever their kind, never put on top of
an entry, and never valid again once they have left their table.

The fake has one more table, and its keys are what the callers pass (`not_capturesBelow`).
-/
import Vmb.Fake.Identifiers
import Vmb.Ffi.Identifiers

namespace Vmb.Adapters

open Vmb.Lib Vmb.Core Vmb.Sdk

/-- **The identifiers of both adapters are fresh**, in every interleaving of port calls that draws
fewer than `2^64 - 1` numbers. The captures of the fake are keyed by the handles that have been passed. -/
theorem identifiers_fresh {ι τ : Type} [DecidableEq ι] (api : VmbApi τ) (started : Bool) (t : τ)
    (config : Fake.Config) (moves : List (Move ι PortCall)) :
    (((Ffi.register τ).draws (Ffi.interleaved api started t moves).log).length < 2 ^ 64 - 1 →
      KeysFresh (Ffi.register τ) (Ffi.interleaved api started t) moves) ∧
    ((Fake.register.draws (Fake.interleaved config moves).log).length < 2 ^ 64 - 1 →
      KeysFresh Fake.register (Fake.interleaved config) moves) ∧
    Fake.CapturesNamed (Fake.interleaved config) moves :=
  ⟨Ffi.keysFresh_interleaved api started t moves, Fake.keysFresh_interleaved config moves,
    Fake.capturesNamed_interleaved config moves⟩

/-- Two threads that open a camera at the same time: both numbers are drawn before the first
identifier is in its table. Then one closes its camera while the other installs a closure. -/
def overlapping : List (Move Bool PortCall) :=
  [.invoke false (.openCamera "DEV_1"), .invoke true (.openCamera "DEV_2")] ++
    (List.replicate 6 [.step false, .step true]).flatten ++
    [.invoke true (.closeCamera ⟨⟨2, nonZero_two⟩⟩), .invoke false (.installDiscoveryCallback ⟨0⟩)] ++
    (List.replicate 6 [.step true, .step false]).flatten

theorem identifiers_fresh_overlapping :
    KeysFresh (Ffi.register Nat) (Ffi.interleaved mockApi false 0) overlapping ∧
      KeysFresh Fake.register (Fake.interleaved Fake.FakeState.new.config) overlapping := by
  obtain ⟨hffi, hfake, -⟩ :=
    identifiers_fresh mockApi false 0 Fake.FakeState.new.config overlapping
  exact ⟨hffi (by decide +kernel), hfake (by decide +kernel)⟩

/-- **A capture of a camera that was never opened**: its key is not below the counter. -/
theorem not_capturesBelow :
    ¬ ∀ (config : Fake.Config) (moves : List (Move Unit PortCall)),
      (Fake.register.draws (Fake.interleaved config moves).log).length < 2 ^ 64 - 1 →
        ∀ h ∈ (Fake.interleaved config moves).shared.activeCaptures,
          h.asU64.toNat < (Fake.interleaved config moves).shared.counter := by
  intro hbelow
  have hlt := hbelow Fake.FakeState.new.config
    (.invoke () (.captureStart ⟨⟨999, by decide⟩⟩) :: List.replicate 4 (.step ())) (by decide +kernel)
    ⟨⟨999, by decide⟩⟩ (by decide +kernel)
  revert hlt
  decide +kernel

end Vmb.Adapters

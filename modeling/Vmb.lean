import Vmb.Lib.Prog
import Vmb.Lib.Contract
import Vmb.Lib.Since
import Vmb.Lib.Tracks
import Vmb.Core.Types
import Vmb.Core.Port
import Vmb.Core.Domain
import Vmb.Core.World
import Vmb.Core.Ownership
import Vmb.Lib.Utf8
import Vmb.Sdk.Api
import Vmb.Ffi.State
import Vmb.Ffi.Runtime
import Vmb.Ffi.Step
import Vmb.Ffi.FailedTeardown
import Vmb.Core.Alive
import Vmb.Core.Bracket
import Vmb.Core.Conformance
import Vmb.Fake.Resources
import Vmb.Ffi.Discovery
import Vmb.Ffi.Resources
import Vmb.Ffi.Interleaving
import Vmb.Ffi.Startup
import Vmb.Core.Agreement
import Vmb.Fake.Agreement
import Vmb.Adapters.TeardownLocks
import Vmb.Core.CapturePlan
import Vmb.Core.Starting
import Vmb.Fake.Injection
import Vmb.Ffi.CaptureRing
import Vmb.Ffi.Delivery
import Vmb.Ffi.Enumeration
import Vmb.Ffi.EventDecoding
import Vmb.Ffi.FailedCalls
import Vmb.Ffi.Handles
import Vmb.Ffi.StringArguments
import Vmb.Ffi.FrameView
import Vmb.Ffi.TeardownOrder
import Vmb.Fake.Driving
import Vmb.Fake.Emission
import Vmb.Fake.CaptureWindow
import Vmb.Fake.FrameDelivery
import Vmb.Lib.Fresh
import Vmb.Ffi.Atomic
import Vmb.Ffi.Identifiers
import Vmb.Fake.Atomic
import Vmb.Fake.Identifiers
import Vmb.Adapters.Identifiers
import Vmb.Lib.Handler
import Vmb.Lib.Locks
import Vmb.Lib.Draining
import Vmb.Adapters.FfiLocks
import Vmb.Ffi.Footprint
import Vmb.Adapters.QueueLock
import Vmb.Lib.Tokens
import Vmb.Ffi.RawHandles
import Vmb.Ffi.DiscoveryLifetime
import Vmb.Lib.Trust
import Vmb.Ffi.SdkProtocol
import Vmb.Ffi.Owners
import Vmb.Lib.Shelves
import Vmb.Ffi.SharedTables
import Vmb.Fake.SharedTables
import Vmb.Sdk.Loader
import Vmb.Lib.Balance
import Vmb.Ffi.Loading
import Vmb.Adapters.LockedRuns
import Vmb.Ffi.FrameOwners
import Vmb.Ffi.FrameLifetime

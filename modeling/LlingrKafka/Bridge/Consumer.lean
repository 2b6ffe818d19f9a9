import LlingrKafka.Bridge.Callbacks
import Mathlib.Data.Int.Notation

/-!
# What the callback set switches on

`newBridgeBuilder` (`bridge/adapters.go`) and the end of `buildFranzConsumer`
(`bridge/adapter_franz.go`), as far as they depend on the registered callbacks:
the engine's logger, its bandwidth sink and flush interval, and the adapter's
bandwidth interval.  Durations are in nanoseconds.
-/

namespace LlingrKafka.Bridge

/-- `parsedBandwidth`. -/
structure ParsedBandwidth where
  statsInterval : ℤ
  flushInterval : ℤ
  deriving DecidableEq, Repr

/-- The optional calls `newBridgeBuilder` makes on the engine's builder. -/
structure BuilderOptions where
  service : Option (String × String)
  logger : Bool
  bandwidthMetricsSink : Bool
  bandwidthFlushInterval : Option ℤ
  deriving DecidableEq, Repr

/-- `newBridgeBuilder`. -/
def newBridgeBuilder (callbacks : CallbackSet) (service : Option (String × String))
    (bw : ParsedBandwidth) : BuilderOptions where
  service := service
  logger := callbacks.log
  bandwidthMetricsSink := callbacks.bandwidth
  bandwidthFlushInterval :=
    if callbacks.bandwidth ∧ bw.flushInterval > 0 then some bw.flushInterval else none

/-- The wired consumer: the builder's options, and the interval the adapter collects
bandwidth at, when it collects it. -/
structure FranzConsumer where
  builder : BuilderOptions
  bandwidthInterval : Option ℤ
  deriving DecidableEq, Repr

/-- The wiring at the end of `buildFranzConsumer`. -/
def buildFranzConsumer (callbacks : CallbackSet) (service : Option (String × String))
    (bw : ParsedBandwidth) : FranzConsumer where
  builder := newBridgeBuilder callbacks service bw
  bandwidthInterval := if callbacks.bandwidth then some bw.statsInterval else none

end LlingrKafka.Bridge

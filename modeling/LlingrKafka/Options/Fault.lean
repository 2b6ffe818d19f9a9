import LlingrKafka.Foundations.Duration
import LlingrKafka.Security.Fault

/-!
# The errors of the option stage

One constructor for each place where `adapter_franz.go` and `adapters.go` return an error
for an option, with the values its message shows.
-/

namespace LlingrKafka.Options

open Bridge Security

/-- The bounds of the poll-error options. -/
def minPollErrorBailAfter : ℤ := 60000000000
def maxPollErrorBailAfter : ℤ := 3600000000000
def maxPollErrorBackoff : ℤ := 5000000000

inductive OptionFault
  | reserved (key setter : String)
  | unsupported (key : String) (supported : List String)
  | millis (key value : String)
  | nonNegativeMillis (key value : String)
  | int32 (key value : String)
  | bool (key value : String)
  | autoOffsetReset (value : String)
  | strategyEmpty (value : String)
  | strategyUnsupported (name : String)
  | instanceIDEmpty
  | rackEmpty
  | readUncommitted
  | isolationLevel (value : String)
  | clientLogLevel (value : String)
  | bailAfter (d : ℤ)
  | backoff (d : ℤ)
  | rebalanceBelowDrain (rebalance drain : ℤ)
  | security (fault : SecurityFault)
  deriving DecidableEq

namespace OptionFault

/-- The return code. -/
def code : OptionFault → ErrCode
  | security fault => fault.code
  | _ => .badOption

/-- The message, with `%q` as a parameter. -/
def msg (quote : String → String) : OptionFault → String
  | reserved key setter => "option " ++ quote key ++ " is reserved: it is set via " ++ setter ++
      " and cannot be overridden as a client option"
  | unsupported key supported => "option " ++ quote key ++ " is not supported (supported: " ++
      ", ".intercalate supported ++ ")"
  | millis key value => key ++ " must be a positive integer of milliseconds, got " ++ quote value
  | nonNegativeMillis key value => key ++
      " must be a non-negative integer of milliseconds, got " ++ quote value
  | int32 key value => key ++ " must be a positive 32-bit integer, got " ++ quote value
  | bool key value => key ++ " must be \"true\" or \"false\", got " ++ quote value
  | autoOffsetReset value => "auto.offset.reset must be \"earliest\" or \"latest\", got " ++
      quote value
  | strategyEmpty value => "partition.assignment.strategy " ++ quote value ++
      " has an empty entry; use a comma-separated preference list of cooperative-sticky, " ++
      "sticky, roundrobin, range"
  | strategyUnsupported name => "partition.assignment.strategy " ++ quote name ++
      " is not supported; use a comma-separated preference list of cooperative-sticky, " ++
      "sticky, roundrobin, range"
  | instanceIDEmpty => "group.instance.id must not be empty"
  | rackEmpty => "client.rack must not be empty"
  | readUncommitted => "isolation.level=read_uncommitted is rejected: aborted " ++
      "transactional records would be processed and committed downstream"
  | isolationLevel value => "isolation.level must be \"read_committed\" (read_uncommitted is " ++
      "rejected), got " ++ quote value
  | clientLogLevel value => "llingr.client.log.level " ++ quote value ++
      ": want none, error, warn, info, or debug"
  | bailAfter d => "llingr.poll.error.bail.after.ms must be 0 (disable the bail) or between " ++
      Duration.text minPollErrorBailAfter ++ " and " ++ Duration.text maxPollErrorBailAfter ++
      ", got " ++ Duration.text d
  | backoff d => "llingr.poll.error.backoff.ms must be at most " ++
      Duration.text maxPollErrorBackoff ++ " (0 disables the backoff), got " ++ Duration.text d
  | rebalanceBelowDrain rebalance drain => "rebalance.timeout.ms (" ++ Duration.text rebalance ++
      ") must exceed the engine drain timeout (" ++ Duration.text drain ++ "): the engine " ++
      "drains in-flight work during a rebalance before acking the revoke, and a rebalance " ++
      "timeout at or below the drain budget can evict the consumer mid-drain, causing duplicates"
  | security fault => fault.msg quote

theorem msg_ne_empty (quote : String → String) (f : OptionFault) : f.msg quote ≠ "" := by
  cases f with
  | security fault => exact fault.msg_ne_empty quote
  | _ => first
    | exact Text.append_ne_empty (.inr (ne_of_beq_false rfl))
    | exact Text.append_ne_empty (.inl (ne_of_beq_false rfl))
    | exact Text.append_ne_empty (.inl (Text.append_ne_empty (.inr (ne_of_beq_false rfl))))
    | exact ne_of_beq_false rfl

/-- `bridgeErrorf` with the code and the message. -/
def toBridgeError (quote : String → String) (f : OptionFault) : BridgeError :=
  ⟨f.code, f.msg quote⟩

end OptionFault

end LlingrKafka.Options

import LlingrKafka.Bridge.RegistrationSafety
import LlingrKafka.Lifecycle.ExitDelivered
import LlingrKafka.Lifecycle.RunReturns
import LlingrKafka.Lifecycle.Progress
import LlingrKafka.Wire.RoundTrip
import LlingrKafka.Wire.Reason
import LlingrKafka.Wire.PacketRoundTrip
import LlingrKafka.Builder.Sequence
import LlingrKafka.Builder.Composition
import LlingrKafka.Builder.Redaction
import LlingrKafka.Builder.LastWrite
import LlingrKafka.Builder.Extensions
import LlingrKafka.Builder.Rebalance
import LlingrKafka.Config.DemuxKeys
import LlingrKafka.Security.TokenCache
import LlingrKafka.Security.GcpToken
import LlingrKafka.Engine.Retries
import LlingrKafka.Engine.HandlerReads
import LlingrKafka.Engine.Completion
import LlingrKafka.Engine.Configured
import LlingrKafka.Engine.StartupRefines
import LlingrKafka.Metrics.Timestamps
import LlingrKafka.Metrics.MessageFold
import LlingrKafka.Metrics.BandwidthFold
import LlingrKafka.Abi.CommentEdits
import LlingrKafka.Abi.Lock

import LlingrKafka.Config.Encode
import Mathlib.Data.List.Destutter
import Mathlib.Data.List.Sort
import Mathlib.Data.String.Basic

/-!
# The option builder

`Options` (`src/options.rs`): the setters, the pairs they add up to, and the check that no
security key is given in both styles.  A builder is the list of calls made on it; setters
that only append a pair are one family, `ClientSetter`.

`duration_ms_ceil` and the text of an `AutoOffsetReset` come from the nexus crate; the first
is a parameter, the second the setter's argument.
-/

namespace LlingrKafka.Builder

/-- `SaslMechanism`. -/
inductive SaslMechanism
  | plain
  | scramSha256
  | scramSha512
  deriving DecidableEq, Repr

def SaslMechanism.asStr : SaslMechanism → String
  | plain => "PLAIN"
  | scramSha256 => "SCRAM-SHA-256"
  | scramSha512 => "SCRAM-SHA-512"

/-- `Sasl`. -/
inductive Sasl
  | userPass (mechanism : SaslMechanism) (username password : String)
  | awsMskIam (region profile roleArn roleSessionName : Option String)
  | oauthbearerOidc (tokenEndpoint clientId clientSecret : String) (scope : Option String)
      (extensions : List (String × String))
  | gcpIam (principal credentialsFile : Option String)
  deriving DecidableEq, Repr

/-- `BalanceStrategy`. -/
inductive BalanceStrategy
  | cooperativeSticky
  | sticky
  | roundRobin
  | range
  deriving DecidableEq, Repr

def BalanceStrategy.wireName : BalanceStrategy → String
  | cooperativeSticky => "cooperative-sticky"
  | sticky => "sticky"
  | roundRobin => "roundrobin"
  | range => "range"

/-- `ClientLogLevel`. -/
inductive ClientLogLevel
  | none
  | error
  | warn
  | info
  | debug
  deriving DecidableEq, Repr

def ClientLogLevel.wireName : ClientLogLevel → String
  | none => "none"
  | error => "error"
  | warn => "warn"
  | info => "info"
  | debug => "debug"

/-- `Options`. -/
structure Options where
  entries : List (String × String)
  tls : Bool
  sslEntries : List (String × String)
  sasl : Option Sasl

/-- `Options::new`. -/
def Options.new : Options := ⟨[], false, [], none⟩

/-! ## The setters -/

/-- The setters that append one pair; durations are in nanoseconds. -/
inductive ClientSetter
  | autoOffsetReset (reset : String)
  | clientId (id : String)
  | groupInstanceId (id : String)
  | sessionTimeout (d : ℕ)
  | heartbeatInterval (d : ℕ)
  | rebalanceTimeout (d : ℕ)
  | clientLogLevel (level : ClientLogLevel)
  | partitionAssignmentStrategy (strategies : List BalanceStrategy)
  | fetchMinBytes (n : UInt32)
  | fetchMaxBytes (n : UInt32)
  | maxPartitionFetchBytes (n : UInt32)
  | fetchMaxWait (d : ℕ)
  | rack (rack : String)
  | metadataMaxAge (d : ℕ)
  | dialTimeout (d : ℕ)
  | connectionIdleTimeout (d : ℕ)
  | requestRetries (n : UInt32)
  | retryTimeout (d : ℕ)
  | maxConcurrentFetches (n : UInt32)
  | allowAutoTopicCreation
  | disableFetchCrcValidation
  | disableClientMetricsPush
  | pollErrorBailAfter (d : ℕ)
  | pollErrorLogInterval (d : ℕ)
  | pollErrorBackoff (d : ℕ)
  deriving DecidableEq, Repr

/-- The key a setter writes. -/
def ClientSetter.key : ClientSetter → String
  | autoOffsetReset _ => "auto.offset.reset"
  | clientId _ => "client.id"
  | groupInstanceId _ => "group.instance.id"
  | sessionTimeout _ => "session.timeout.ms"
  | heartbeatInterval _ => "heartbeat.interval.ms"
  | rebalanceTimeout _ => "rebalance.timeout.ms"
  | clientLogLevel _ => "llingr.client.log.level"
  | partitionAssignmentStrategy _ => "partition.assignment.strategy"
  | fetchMinBytes _ => "fetch.min.bytes"
  | fetchMaxBytes _ => "fetch.max.bytes"
  | maxPartitionFetchBytes _ => "max.partition.fetch.bytes"
  | fetchMaxWait _ => "fetch.max.wait.ms"
  | rack _ => "client.rack"
  | metadataMaxAge _ => "metadata.max.age.ms"
  | dialTimeout _ => "socket.connection.setup.timeout.ms"
  | connectionIdleTimeout _ => "connections.max.idle.ms"
  | requestRetries _ => "llingr.request.retries"
  | retryTimeout _ => "llingr.retry.timeout.ms"
  | maxConcurrentFetches _ => "llingr.max.concurrent.fetches"
  | allowAutoTopicCreation => "allow.auto.create.topics"
  | disableFetchCrcValidation => "check.crcs"
  | disableClientMetricsPush => "enable.metrics.push"
  | pollErrorBailAfter _ => "llingr.poll.error.bail.after.ms"
  | pollErrorLogInterval _ => "llingr.poll.error.log.interval.ms"
  | pollErrorBackoff _ => "llingr.poll.error.backoff.ms"

section

variable (durationMsCeil : ℕ → ℕ)

/-- The value a setter writes. -/
def ClientSetter.value : ClientSetter → String
  | autoOffsetReset s | clientId s | groupInstanceId s | rack s => s
  | sessionTimeout d | heartbeatInterval d | rebalanceTimeout d | fetchMaxWait d
  | metadataMaxAge d | dialTimeout d | connectionIdleTimeout d | retryTimeout d
  | pollErrorBailAfter d | pollErrorLogInterval d | pollErrorBackoff d =>
      toString (durationMsCeil d)
  | fetchMinBytes n | fetchMaxBytes n | maxPartitionFetchBytes n | requestRetries n
  | maxConcurrentFetches n => toString n.toNat
  | clientLogLevel level => level.wireName
  | partitionAssignmentStrategy strategies =>
      ",".intercalate (strategies.map BalanceStrategy.wireName)
  | allowAutoTopicCreation => "true"
  | disableFetchCrcValidation | disableClientMetricsPush => "false"

/-- A call on the builder. -/
inductive Call
  | client (setter : ClientSetter)
  | tls
  | tlsCaLocation (path : String)
  | tlsCaPem (pem : String)
  | tlsClientCertificate (certificatePath keyPath : String)
  | tlsClientCertificatePem (certificatePem keyPem : String)
  | disableCertificateVerification
  | disableHostnameVerification
  | saslPlain (username password : String)
  | saslScramSha256 (username password : String)
  | saslScramSha512 (username password : String)
  | saslAwsMskIam
  | awsRegion (region : String)
  | awsProfile (profile : String)
  | awsAssumeRole (roleArn : String) (sessionName : Option String)
  | saslOauthbearerOidc (tokenEndpointUrl clientId clientSecret : String)
  | oauthbearerScope (scope : String)
  | oauthbearerExtensions (pairs : List (String × String))
  | saslGcpIam
  | gcpPrincipal (principal : String)
  | gcpCredentialsFile (path : String)
  | kafkaOption (key value : String)
  | kafkaOptions (pairs : List (String × String))
  deriving DecidableEq, Repr

namespace Options

/-- `Options::push`. -/
def push (o : Options) (key value : String) : Options :=
  { o with entries := o.entries ++ [(key, value)] }

/-- `Options::push_ssl`. -/
def pushSsl (o : Options) (key value : String) : Options :=
  { o with tls := true, sslEntries := o.sslEntries ++ [(key, value)] }

/-- The setters. -/
def apply (o : Options) : Call → Options
  | .client setter => o.push setter.key (setter.value durationMsCeil)
  | .tls => { o with tls := true }
  | .tlsCaLocation path => o.pushSsl "ssl.ca.location" path
  | .tlsCaPem pem => o.pushSsl "ssl.ca.pem" pem
  | .tlsClientCertificate certificatePath keyPath =>
      (o.pushSsl "ssl.certificate.location" certificatePath).pushSsl "ssl.key.location" keyPath
  | .tlsClientCertificatePem certificatePem keyPem =>
      (o.pushSsl "ssl.certificate.pem" certificatePem).pushSsl "ssl.key.pem" keyPem
  | .disableCertificateVerification => o.pushSsl "enable.ssl.certificate.verification" "false"
  | .disableHostnameVerification => o.pushSsl "ssl.endpoint.identification.algorithm" "none"
  | .saslPlain username password => { o with sasl := some (.userPass .plain username password) }
  | .saslScramSha256 username password =>
      { o with sasl := some (.userPass .scramSha256 username password) }
  | .saslScramSha512 username password =>
      { o with sasl := some (.userPass .scramSha512 username password) }
  -- the AWS and GCP mechanisms are TLS-only and force it
  | .saslAwsMskIam => { o with tls := true, sasl := some (.awsMskIam none none none none) }
  | .awsRegion region =>
      match o.sasl with
      | some (.awsMskIam _ p arn name) =>
          { o with sasl := some (.awsMskIam (some region) p arn name) }
      | _ => o
  | .awsProfile profile =>
      match o.sasl with
      | some (.awsMskIam r _ arn name) =>
          { o with sasl := some (.awsMskIam r (some profile) arn name) }
      | _ => o
  | .awsAssumeRole roleArn sessionName =>
      match o.sasl with
      | some (.awsMskIam r p _ _) =>
          { o with sasl := some (.awsMskIam r p (some roleArn) sessionName) }
      | _ => o
  | .saslOauthbearerOidc tokenEndpointUrl clientId clientSecret =>
      { o with sasl := some (.oauthbearerOidc tokenEndpointUrl clientId clientSecret none []) }
  | .oauthbearerScope scope =>
      match o.sasl with
      | some (.oauthbearerOidc url id secret _ extensions) =>
          { o with sasl := some (.oauthbearerOidc url id secret (some scope) extensions) }
      | _ => o
  | .oauthbearerExtensions pairs =>
      match o.sasl with
      | some (.oauthbearerOidc url id secret scope _) =>
          { o with sasl := some (.oauthbearerOidc url id secret scope pairs) }
      | _ => o
  | .saslGcpIam => { o with tls := true, sasl := some (.gcpIam none none) }
  | .gcpPrincipal principal =>
      match o.sasl with
      | some (.gcpIam _ file) => { o with sasl := some (.gcpIam (some principal) file) }
      | _ => o
  | .gcpCredentialsFile path =>
      match o.sasl with
      | some (.gcpIam principal _) => { o with sasl := some (.gcpIam principal (some path)) }
      | _ => o
  | .kafkaOption key value => o.push key value
  | .kafkaOptions pairs => pairs.foldl (fun o p => o.push p.1 p.2) o

/-- The builder after the calls, in order. -/
def build (calls : List Call) : Options := calls.foldl (apply durationMsCeil) .new

end Options

end

/-! ## The pairs -/

/-- The joined text of the extensions. -/
def joinExtensions (extensions : List (String × String)) : String :=
  ",".intercalate (extensions.map fun p => p.1 ++ "=" ++ p.2)

/-- A pair that is there when its value is. -/
def optPair (key : String) (value : Option String) : List (String × String) :=
  (value.map fun v => (key, v)).toList

/-- The pairs of the mechanism. -/
def Sasl.entries : Sasl → List (String × String)
  | userPass mechanism username password =>
      [("sasl.mechanism", mechanism.asStr), ("sasl.username", username),
        ("sasl.password", password)]
  | awsMskIam region profile roleArn roleSessionName =>
      [("sasl.mechanism", "AWS_MSK_IAM")] ++ optPair "aws.region" region ++
        optPair "aws.profile" profile ++ optPair "aws.role.arn" roleArn ++
        optPair "aws.role.session.name" roleSessionName
  | oauthbearerOidc tokenEndpoint clientId clientSecret scope extensions =>
      [("sasl.mechanism", "OAUTHBEARER"), ("sasl.oauthbearer.token.endpoint.url", tokenEndpoint),
        ("sasl.oauthbearer.client.id", clientId),
        ("sasl.oauthbearer.client.secret", clientSecret)] ++
        optPair "sasl.oauthbearer.scope" scope ++
        if extensions.isEmpty then []
        else [("sasl.oauthbearer.extensions", joinExtensions extensions)]
  | gcpIam principal credentialsFile =>
      [("sasl.mechanism", "OAUTHBEARER"), ("sasl.oauthbearer.method", "gcp")] ++
        optPair "gcp.principal" principal ++ optPair "gcp.credentials.file" credentialsFile

namespace Options

/-- A typed security setter was called. -/
def securityActive (o : Options) : Bool := o.tls || o.sasl.isSome

/-- The protocol of the typed setters. -/
def protocol (o : Options) : String :=
  match o.tls, o.sasl.isSome with
  | true, true => "sasl_ssl"
  | true, false => "ssl"
  | false, _ => "sasl_plaintext"

/-- The pairs of the typed security setters. -/
def securityEntries (o : Options) : List (String × String) :=
  if o.securityActive then
    ("security.protocol", o.protocol) :: (o.sslEntries ++ o.sasl.elim [] Sasl.entries)
  else []

/-- `Options::entries`. -/
def allEntries (o : Options) : List (String × String) := o.entries ++ o.securityEntries

/-- The keys of the mechanism, as the conflict check lists them. -/
def saslKeys : Sasl → List String
  | .userPass .. => ["sasl.mechanism", "sasl.mechanisms", "sasl.username", "sasl.password"]
  | .awsMskIam .. => ["sasl.mechanism", "sasl.mechanisms", "aws.region", "aws.profile",
      "aws.role.arn", "aws.role.session.name"]
  | .oauthbearerOidc .. => ["sasl.mechanism", "sasl.mechanisms",
      "sasl.oauthbearer.token.endpoint.url", "sasl.oauthbearer.client.id",
      "sasl.oauthbearer.client.secret", "sasl.oauthbearer.scope", "sasl.oauthbearer.extensions"]
  | .gcpIam .. => ["sasl.mechanism", "sasl.mechanisms", "sasl.oauthbearer.method",
      "gcp.principal", "gcp.credentials.file"]

/-- `Options::typed_security_keys`. -/
def typedSecurityKeys (o : Options) : List String :=
  if o.securityActive then
    "security.protocol" :: (o.sslEntries.map Prod.fst ++ o.sasl.elim [] saslKeys)
  else []

/-- The keys given in both styles, as the message lists them. -/
def conflicts (o : Options) : List String :=
  (((o.entries.map Prod.fst).filter fun key => o.typedSecurityKeys.contains key).insertionSort
    (· ≤ ·)).destutter (· ≠ ·)

/-- `Options::validate`. -/
def validate (o : Options) : Except String Unit :=
  if o.typedSecurityKeys.isEmpty then .ok ()
  else if o.conflicts.isEmpty then .ok ()
  else .error ("Options: security key(s) set both via typed setters and kafka_option(): " ++
    ", ".intercalate o.conflicts ++ "; configure each key with one style only")

end Options

end LlingrKafka.Builder

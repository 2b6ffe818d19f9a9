import LlingrKafka.Bridge.Error
import LlingrKafka.Foundations.Text

/-!
# The errors of the security stage

One constructor for each place where `franz_security.go`, `aws_iam.go`, `oauth_oidc.go` and
`gcp_iam.go` return an error, with the values its message shows.
-/

namespace LlingrKafka.Security

open Bridge

inductive SecurityFault
  | protocolMissing
  | plaintextConflict
  | saslRequires (protocol : String)
  | sslRequires (protocol : String)
  | protocolUnknown (protocol : String)
  | keyPassword
  | caExclusive
  | caLocation (err : String)
  | caUnparseable
  | certificateExclusive
  | certificateLocationHalf
  | certificateLoading (err : String)
  | certificatePemHalf
  | certificateParsing (err : String)
  | verification (value : String)
  | endpoint (value : String)
  | mechanismMissing (protocol : String)
  | awsOrphaned (mechanism : String)
  | oauthOrphaned (mechanism : String)
  | gcpOrphaned
  | usernameMissing (mechanism : String)
  | passwordMissing (mechanism : String)
  | gssapi
  | mechanismUnsupported (mechanism : String)
  | awsProtocol (protocol : String)
  | awsUserPass
  | awsSessionName
  | awsConfig (err : String)
  | awsCredentials (err : String)
  | oidcUserPass
  | oauthMethod (method : String)
  | oidcEndpoint
  | oidcClient
  | extensions (raw : String)
  | oidcToken (err : String)
  | gcpProtocol (protocol : String)
  | gcpUserPass
  | gcpOidcKeys
  | gcpCredentialsFile (err : String)
  | gcpCredentials (err : String)
  | gcpPrincipal
  | gcpToken (err : String)
  | gcpTimeout
  deriving DecidableEq, Repr

namespace SecurityFault

/-- The return code: credential sources that do not answer are adapter errors. -/
def code : SecurityFault → ErrCode
  | awsConfig _ | awsCredentials _ | oidcToken _ | gcpCredentials _ | gcpToken _ | gcpTimeout =>
      .adapter
  | _ => .badOption

/-- The message, with `%q` as a parameter. -/
def msg (quote : String → String) : SecurityFault → String
  | protocolMissing => "security options were provided but security.protocol is not set " ++
      "(expected one of: plaintext, ssl, sasl_plaintext, sasl_ssl)"
  | plaintextConflict =>
      "security.protocol=plaintext conflicts with the ssl.*/sasl.* options provided"
  | saslRequires protocol => "sasl.* options require security.protocol=sasl_plaintext or " ++
      "sasl_ssl (got " ++ quote protocol ++ ")"
  | sslRequires protocol => "ssl.* options require security.protocol=ssl or sasl_ssl (got " ++
      quote protocol ++ ")"
  | protocolUnknown protocol => "unknown security.protocol " ++ quote protocol ++
      " (expected one of: plaintext, ssl, sasl_plaintext, sasl_ssl)"
  | keyPassword => "ssl.key.password is not supported (encrypted client keys need OpenSSL); " ++
      "decrypt the key before configuring it"
  | caExclusive => "ssl.ca.location and ssl.ca.pem are mutually exclusive"
  | caLocation err => "ssl.ca.location: " ++ err
  | caUnparseable => "CA source contains no parseable PEM certificates"
  | certificateExclusive => "ssl.certificate.location/ssl.key.location and " ++
      "ssl.certificate.pem/ssl.key.pem are mutually exclusive"
  | certificateLocationHalf => "ssl.certificate.location and ssl.key.location must both be set"
  | certificateLoading err => "loading client certificate: " ++ err
  | certificatePemHalf => "ssl.certificate.pem and ssl.key.pem must both be set"
  | certificateParsing err => "parsing client certificate: " ++ err
  | verification value => "enable.ssl.certificate.verification must be \"true\" or \"false\", " ++
      "got " ++ quote value
  | endpoint value => "ssl.endpoint.identification.algorithm must be \"https\" or \"none\", " ++
      "got " ++ quote value
  | mechanismMissing protocol => "sasl.mechanism is required with security.protocol=" ++ protocol
  | awsOrphaned mechanism => "aws.* options apply only to sasl.mechanism=AWS_MSK_IAM (got " ++
      mechanism ++ ")"
  | oauthOrphaned mechanism => "sasl.oauthbearer.* options apply only to " ++
      "sasl.mechanism=OAUTHBEARER (got " ++ mechanism ++ ")"
  | gcpOrphaned => "gcp.* options apply only to sasl.mechanism=OAUTHBEARER with " ++
      "sasl.oauthbearer.method=gcp"
  | usernameMissing mechanism => "sasl.username is required with sasl.mechanism=" ++ mechanism
  | passwordMissing mechanism => "sasl.password is required with sasl.mechanism=" ++ mechanism
  | gssapi => "GSSAPI/Kerberos is not supported: this bridge does not wire franz-go's Kerberos " ++
      "mechanism; it requires a custom engine build"
  | mechanismUnsupported mechanism => "unsupported sasl.mechanism " ++ quote mechanism ++
      " (supported: PLAIN, SCRAM-SHA-256, SCRAM-SHA-512, AWS_MSK_IAM, OAUTHBEARER)"
  | awsProtocol protocol => "sasl.mechanism=AWS_MSK_IAM requires security.protocol=sasl_ssl " ++
      "(MSK IAM is TLS-only), got " ++ quote protocol
  | awsUserPass => "sasl.username/sasl.password are not used with AWS_MSK_IAM " ++
      "(credentials come from the AWS provider chain); remove them"
  | awsSessionName => "aws.role.session.name requires aws.role.arn"
  | awsConfig err => "AWS_MSK_IAM: loading AWS config: " ++ err
  | awsCredentials err => "AWS_MSK_IAM: resolving credentials from the AWS provider chain " ++
      "(env, shared config/profile, STS, web identity, IMDS): " ++ err
  | oidcUserPass => "sasl.username/sasl.password are not used with OAUTHBEARER " ++
      "(the token comes from the OIDC token endpoint); remove them"
  | oauthMethod method => "sasl.oauthbearer.method=" ++ quote method ++ " is not supported " ++
      "(supported: \"oidc\", \"gcp\"; application token callbacks are not available)"
  | oidcEndpoint => "OAUTHBEARER requires sasl.oauthbearer.token.endpoint.url"
  | oidcClient => "OAUTHBEARER requires sasl.oauthbearer.client.id and " ++
      "sasl.oauthbearer.client.secret"
  | extensions raw => "sasl.oauthbearer.extensions must be comma-separated key=value pairs, " ++
      "got " ++ quote raw
  | oidcToken err => "OAUTHBEARER: fetching initial token: " ++ err
  | gcpProtocol protocol => "sasl.oauthbearer.method=gcp requires security.protocol=sasl_ssl " ++
      "(Google Cloud Managed Service for Apache Kafka is TLS-only), got " ++ quote protocol
  | gcpUserPass => "sasl.username/sasl.password are not used with sasl.oauthbearer.method=gcp " ++
      "(credentials come from Application Default Credentials); remove them"
  | gcpOidcKeys => "the sasl.oauthbearer.\x7btoken.endpoint.url,client.id,client.secret,scope," ++
      "extensions\x7d options apply to sasl.oauthbearer.method=oidc, not method=gcp " ++
      "(the GCP token comes from Application Default Credentials)"
  | gcpCredentialsFile err => "gcp.credentials.file: " ++ err
  | gcpCredentials err => "gcp: resolving Application Default Credentials (env key file, gcloud " ++
      "user credentials, workload identity, GCE metadata): " ++ err
  | gcpPrincipal => "unable to determine the GCP principal for the credentials: set " ++
      "gcp.principal (or the GOOGLE_MANAGED_KAFKA_AUTH_PRINCIPAL environment variable) to the " ++
      "authenticating identity's email"
  | gcpToken err => "gcp: fetching initial token from Application Default Credentials: " ++ err
  | gcpTimeout => "gcp: fetching initial token from Application Default Credentials timed out " ++
      "after 20s"

theorem msg_ne_empty (quote : String → String) (f : SecurityFault) : f.msg quote ≠ "" := by
  -- the last part of a text is a literal, or stands right behind one
  cases f <;> first
    | exact Text.append_ne_empty (.inr (ne_of_beq_false rfl))
    | exact Text.append_ne_empty (.inl (ne_of_beq_false rfl))
    | exact Text.append_ne_empty (.inl (Text.append_ne_empty (.inr (ne_of_beq_false rfl))))
    | exact ne_of_beq_false rfl

end SecurityFault

end LlingrKafka.Security

import LlingrKafka.Security.Tls

/-!
# SASL

`franzSecurity.saslMechanism` (`bridge/franz_security.go`) and the cloud mechanisms it
hands over to (`aws_iam.go`, `oauth_oidc.go`, `gcp_iam.go`).  Resolving credentials is an
oracle that succeeds or fails.  `Selected` says, for each mechanism, which of the collected
fields it is made of, and that no key of another mechanism was given.
-/

namespace LlingrKafka.Security

open Checks

/-- Files and certificates, and the credential sources of the cloud mechanisms: the AWS
provider chain, the OIDC token endpoint, and Application Default Credentials, whose result
is the credentials' JSON. -/
structure SecurityEnv (Roots Cert : Type) extends TlsEnv Roots Cert where
  awsConfig : String → String → Except String Unit
  awsRetrieve : String → String → String → String → Except String Unit
  oidcToken : String → String → String → String → Except String Unit
  gcpCredentialsFromJSON : Utf8.Bytes → Except String Utf8.Bytes
  gcpDefaultCredentials : Except String Utf8.Bytes
  /-- `GOOGLE_MANAGED_KAFKA_AUTH_PRINCIPAL`. -/
  gcpPrincipalEnv : String
  /-- The `client_email` of the credentials, if it can be read. -/
  gcpClientEmail : Utf8.Bytes → String
  /-- The first token; a failure without a text is a timeout. -/
  gcpToken : Utf8.Bytes → Except (Option String) Unit

/-- `sasl.Mechanism`. -/
inductive Mechanism
  | plain (user pass : String)
  | scramSha256 (user pass : String)
  | scramSha512 (user pass : String)
  | awsMskIam (region profile roleARN roleSessionName : String)
  | oauthOIDC (endpoint clientID clientSecret scope : String)
      (extensions : String → Option String)
  | oauthGCP (principal : String) (credentials : Utf8.Bytes)

/-! ## The key families -/

def sslFields : List SecurityField :=
  [.caLocation, .caPEM, .certLocation, .keyLocation, .certPEM, .keyPEM, .keyPassword,
    .verifyCerts, .endpointIdent]

def awsFields : List SecurityField :=
  [.awsRegion, .awsProfile, .awsRoleARN, .awsRoleSessionName]

/-- The keys of the OIDC method alone. -/
def oidcFields : List SecurityField :=
  [.oauthTokenEndpoint, .oauthClientID, .oauthClientSecret, .oauthScope, .oauthExtensions]

def oauthFields : List SecurityField := oidcFields ++ [.oauthMethod]

def gcpFields : List SecurityField := [.gcpPrincipal, .gcpCredentialsFile]

def saslFields : List SecurityField :=
  [.mechanism, .username, .password] ++ awsFields ++ oauthFields ++ gcpFields

namespace FranzSecurity

/-- Some key of a family was given. -/
def HasAny (s : FranzSecurity) (fields : List SecurityField) : Prop :=
  ∃ f ∈ fields, s.field f ≠ ""

instance (s : FranzSecurity) (fields : List SecurityField) : Decidable (s.HasAny fields) :=
  inferInstanceAs (Decidable (∃ f ∈ fields, s.field f ≠ ""))

theorem not_hasAny {s : FranzSecurity} {fields : List SecurityField} :
    ¬ s.HasAny fields ↔ ∀ f ∈ fields, s.field f = "" := by
  simp [HasAny]

/-- `hasSSLKeys`, `hasSASLKeys`, `hasAWSKeys`, `hasOAuthKeys`, `hasGCPKeys`. -/
abbrev hasSSLKeys (s : FranzSecurity) : Prop := s.HasAny sslFields
abbrev hasSASLKeys (s : FranzSecurity) : Prop := s.HasAny saslFields
abbrev hasAWSKeys (s : FranzSecurity) : Prop := s.HasAny awsFields
abbrev hasOAuthKeys (s : FranzSecurity) : Prop := s.HasAny oauthFields
abbrev hasGCPKeys (s : FranzSecurity) : Prop := s.HasAny gcpFields

/-- The mechanism's name as `saslMechanism` compares it. -/
def mechanismName (s : FranzSecurity) : String := Text.toUpper (Text.trimSpace (s.field .mechanism))

end FranzSecurity

/-! ## OAUTHBEARER extensions -/

/-- The loop body of `parseOAuthExtensions`. -/
def storeExtension (raw : String) (out : String → Option String) (piece : List Char) :
    Except SecurityFault (String → Option String) :=
  let pair := Text.trim piece
  if pair = [] then .ok out
  else
    match Text.cut '=' pair with
    | none => .error (.extensions raw)
    | some (key, value) =>
        let key := Text.trim key
        if key = [] then .error (.extensions raw)
        else
          .ok (Function.update out (String.ofList key) (some (String.ofList (Text.trim value))))

/-- `parseOAuthExtensions`; a nil map and an empty one are the same to read. -/
def parseOAuthExtensions (raw : String) : Except SecurityFault (String → Option String) :=
  let raw := Text.trimSpace raw
  if raw = "" then .ok fun _ => none
  else (raw.toList.splitOn ',').foldlM (storeExtension raw) fun _ => none

/-! ## The mechanisms -/

section

variable {Roots Cert : Type} (env : SecurityEnv Roots Cert) (s : FranzSecurity)

/-- `awsIAMMechanism`. -/
def awsIAMMechanism : Except SecurityFault Mechanism := do
  reject (s.field .protocol ≠ "sasl_ssl") (.awsProtocol (s.field .protocol))
  reject (s.field .username ≠ "" ∨ s.field .password ≠ "") .awsUserPass
  reject (s.field .awsRoleSessionName ≠ "" ∧ s.field .awsRoleARN = "") .awsSessionName
  (env.awsConfig (s.field .awsRegion) (s.field .awsProfile)).mapError .awsConfig
  (env.awsRetrieve (s.field .awsRegion) (s.field .awsProfile) (s.field .awsRoleARN)
    (s.field .awsRoleSessionName)).mapError .awsCredentials
  .ok (.awsMskIam (s.field .awsRegion) (s.field .awsProfile) (s.field .awsRoleARN)
    (s.field .awsRoleSessionName))

/-- `oauthOIDCMechanism`. -/
def oauthOIDCMechanism : Except SecurityFault Mechanism := do
  reject (s.field .username ≠ "" ∨ s.field .password ≠ "") .oidcUserPass
  reject (s.field .oauthMethod ≠ "" ∧ s.field .oauthMethod ≠ "oidc")
    (.oauthMethod (s.field .oauthMethod))
  reject (s.field .oauthTokenEndpoint = "") .oidcEndpoint
  reject (s.field .oauthClientID = "" ∨ s.field .oauthClientSecret = "") .oidcClient
  let extensions ← parseOAuthExtensions (s.field .oauthExtensions)
  (env.oidcToken (s.field .oauthTokenEndpoint) (s.field .oauthClientID)
    (s.field .oauthClientSecret) (s.field .oauthScope)).mapError .oidcToken
  .ok (.oauthOIDC (s.field .oauthTokenEndpoint) (s.field .oauthClientID)
    (s.field .oauthClientSecret) (s.field .oauthScope) extensions)

/-- `gcpPrincipal`. -/
def gcpPrincipal (configured : String) (credentialsJSON : Utf8.Bytes) :
    Except SecurityFault String :=
  if configured ≠ "" then .ok configured
  else if env.gcpPrincipalEnv ≠ "" then .ok env.gcpPrincipalEnv
  else if credentialsJSON ≠ [] ∧ env.gcpClientEmail credentialsJSON ≠ "" then
    .ok (env.gcpClientEmail credentialsJSON)
  else .error .gcpPrincipal

/-- The credentials of `gcpIAMMechanism`. -/
def gcpCredentials : Except SecurityFault Utf8.Bytes :=
  if s.field .gcpCredentialsFile ≠ "" then do
    let data ← (env.readFile (s.field .gcpCredentialsFile)).mapError .gcpCredentialsFile
    (env.gcpCredentialsFromJSON data).mapError .gcpCredentials
  else env.gcpDefaultCredentials.mapError .gcpCredentials

/-- `gcpIAMMechanism`. -/
def gcpIAMMechanism : Except SecurityFault Mechanism := do
  reject (s.field .protocol ≠ "sasl_ssl") (.gcpProtocol (s.field .protocol))
  reject (s.field .username ≠ "" ∨ s.field .password ≠ "") .gcpUserPass
  reject (s.HasAny oidcFields) .gcpOidcKeys
  let credentials ← gcpCredentials env s
  let principal ← gcpPrincipal env (s.field .gcpPrincipal) credentials
  (env.gcpToken credentials).mapError fun err => err.elim .gcpTimeout .gcpToken
  .ok (.oauthGCP principal credentials)

/-- The user and password mechanisms of `saslMechanism`. -/
def userPassMechanism (mechanism : String) (make : String → String → Mechanism) :
    Except SecurityFault Mechanism := do
  reject (s.field .username = "") (.usernameMissing mechanism)
  reject (s.field .password = "") (.passwordMissing mechanism)
  .ok (make (s.field .username) (s.field .password))

/-- The switch of `saslMechanism`. -/
def selectMechanism (mechanism : String) : Except SecurityFault Mechanism :=
  if mechanism = "PLAIN" then userPassMechanism s mechanism .plain
  else if mechanism = "SCRAM-SHA-256" then userPassMechanism s mechanism .scramSha256
  else if mechanism = "SCRAM-SHA-512" then userPassMechanism s mechanism .scramSha512
  else if mechanism = "AWS_MSK_IAM" then awsIAMMechanism env s
  else if mechanism = "OAUTHBEARER" then
    if s.field .oauthMethod = "gcp" then gcpIAMMechanism env s else oauthOIDCMechanism env s
  else if mechanism = "GSSAPI" then .error .gssapi
  else .error (.mechanismUnsupported mechanism)

/-- `franzSecurity.saslMechanism`. -/
def FranzSecurity.saslMechanism : Except SecurityFault Mechanism := do
  let mechanism := s.mechanismName
  reject (mechanism = "") (.mechanismMissing (s.field .protocol))
  reject (s.hasAWSKeys ∧ mechanism ≠ "AWS_MSK_IAM") (.awsOrphaned mechanism)
  reject (s.hasOAuthKeys ∧ mechanism ≠ "OAUTHBEARER") (.oauthOrphaned mechanism)
  reject (s.hasGCPKeys ∧ ¬ (mechanism = "OAUTHBEARER" ∧ s.field .oauthMethod = "gcp")) .gcpOrphaned
  selectMechanism env s mechanism

end

/-! ## What a mechanism is made of -/

/-- The mechanism is the one selected, made of its own keys. -/
inductive Selected (s : FranzSecurity) : Mechanism → Prop
  | plain (hname : s.mechanismName = "PLAIN") (huser : s.field .username ≠ "")
      (hpass : s.field .password ≠ "") :
      Selected s (.plain (s.field .username) (s.field .password))
  | scramSha256 (hname : s.mechanismName = "SCRAM-SHA-256") (huser : s.field .username ≠ "")
      (hpass : s.field .password ≠ "") :
      Selected s (.scramSha256 (s.field .username) (s.field .password))
  | scramSha512 (hname : s.mechanismName = "SCRAM-SHA-512") (huser : s.field .username ≠ "")
      (hpass : s.field .password ≠ "") :
      Selected s (.scramSha512 (s.field .username) (s.field .password))
  | awsMskIam (hname : s.mechanismName = "AWS_MSK_IAM") (htls : s.field .protocol = "sasl_ssl")
      (hplain : s.field .username = "" ∧ s.field .password = "") :
      Selected s (.awsMskIam (s.field .awsRegion) (s.field .awsProfile) (s.field .awsRoleARN)
        (s.field .awsRoleSessionName))
  | oauthOIDC (hname : s.mechanismName = "OAUTHBEARER")
      (hmethod : s.field .oauthMethod = "" ∨ s.field .oauthMethod = "oidc")
      (hplain : s.field .username = "" ∧ s.field .password = "")
      (extensions : String → Option String)
      (hextensions : parseOAuthExtensions (s.field .oauthExtensions) = .ok extensions) :
      Selected s (.oauthOIDC (s.field .oauthTokenEndpoint) (s.field .oauthClientID)
        (s.field .oauthClientSecret) (s.field .oauthScope) extensions)
  | oauthGCP (hname : s.mechanismName = "OAUTHBEARER") (hmethod : s.field .oauthMethod = "gcp")
      (htls : s.field .protocol = "sasl_ssl")
      (hplain : s.field .username = "" ∧ s.field .password = "")
      (hoidc : ∀ f ∈ oidcFields, s.field f = "") (principal : String) (credentials : Utf8.Bytes)
      (hprincipal : s.field .gcpPrincipal ≠ "" → principal = s.field .gcpPrincipal) :
      Selected s (.oauthGCP principal credentials)

section

variable {Roots Cert : Type} {env : SecurityEnv Roots Cert} {s : FranzSecurity} {m : Mechanism}

theorem userPassMechanism_ok {mechanism : String} {make : String → String → Mechanism}
    (h : userPassMechanism s mechanism make = .ok m) :
    s.field .username ≠ "" ∧ s.field .password ≠ "" ∧
      m = make (s.field .username) (s.field .password) := by
  obtain ⟨_, huser, h⟩ := bind_eq_ok.mp h
  obtain ⟨_, hpass, h⟩ := bind_eq_ok.mp h
  exact ⟨reject_eq_ok.mp huser, reject_eq_ok.mp hpass, (Except.ok.inj h).symm⟩

theorem awsIAMMechanism_ok (hname : s.mechanismName = "AWS_MSK_IAM")
    (h : awsIAMMechanism env s = .ok m) : Selected s m := by
  obtain ⟨_, htls, h⟩ := bind_eq_ok.mp h
  obtain ⟨_, hplain, h⟩ := bind_eq_ok.mp h
  obtain ⟨_, -, h⟩ := bind_eq_ok.mp h
  obtain ⟨_, -, h⟩ := bind_eq_ok.mp h
  obtain ⟨_, -, h⟩ := bind_eq_ok.mp h
  obtain rfl := Except.ok.inj h
  rw [reject_eq_ok, not_not] at htls
  rw [reject_eq_ok, not_or, not_not, not_not] at hplain
  exact .awsMskIam hname htls hplain

theorem oauthOIDCMechanism_ok (hname : s.mechanismName = "OAUTHBEARER")
    (h : oauthOIDCMechanism env s = .ok m) : Selected s m := by
  obtain ⟨_, hplain, h⟩ := bind_eq_ok.mp h
  obtain ⟨_, hmethod, h⟩ := bind_eq_ok.mp h
  obtain ⟨_, -, h⟩ := bind_eq_ok.mp h
  obtain ⟨_, -, h⟩ := bind_eq_ok.mp h
  obtain ⟨extensions, hextensions, h⟩ := bind_eq_ok.mp h
  obtain ⟨_, -, h⟩ := bind_eq_ok.mp h
  obtain rfl := Except.ok.inj h
  rw [reject_eq_ok, not_or, not_not, not_not] at hplain
  rw [reject_eq_ok, not_and, not_not] at hmethod
  have hmethod' : s.field .oauthMethod = "" ∨ s.field .oauthMethod = "oidc" :=
    or_iff_not_imp_left.mpr hmethod
  exact .oauthOIDC hname hmethod' hplain extensions hextensions

theorem gcpPrincipal_ok {configured principal : String} {credentials : Utf8.Bytes}
    (h : gcpPrincipal env configured credentials = .ok principal) (hne : configured ≠ "") :
    principal = configured := by
  rw [gcpPrincipal, if_pos hne] at h
  exact (Except.ok.inj h).symm

theorem gcpIAMMechanism_ok (hname : s.mechanismName = "OAUTHBEARER")
    (hmethod : s.field .oauthMethod = "gcp") (h : gcpIAMMechanism env s = .ok m) :
    Selected s m := by
  obtain ⟨_, htls, h⟩ := bind_eq_ok.mp h
  obtain ⟨_, hplain, h⟩ := bind_eq_ok.mp h
  obtain ⟨_, hoidc, h⟩ := bind_eq_ok.mp h
  obtain ⟨credentials, -, h⟩ := bind_eq_ok.mp h
  obtain ⟨principal, hprincipal, h⟩ := bind_eq_ok.mp h
  obtain ⟨_, -, h⟩ := bind_eq_ok.mp h
  obtain rfl := Except.ok.inj h
  rw [reject_eq_ok, not_not] at htls
  rw [reject_eq_ok, not_or, not_not, not_not] at hplain
  rw [reject_eq_ok, FranzSecurity.not_hasAny] at hoidc
  exact .oauthGCP hname hmethod htls hplain hoidc principal credentials fun hne =>
    gcpPrincipal_ok hprincipal hne

theorem selectMechanism_ok (h : selectMechanism env s s.mechanismName = .ok m) :
    Selected s m := by
  unfold selectMechanism at h
  split_ifs at h with hplain hsha256 hsha512 haws hoauth hgcp
  · obtain ⟨huser, hpass, rfl⟩ := userPassMechanism_ok h
    exact .plain hplain huser hpass
  · obtain ⟨huser, hpass, rfl⟩ := userPassMechanism_ok h
    exact .scramSha256 hsha256 huser hpass
  · obtain ⟨huser, hpass, rfl⟩ := userPassMechanism_ok h
    exact .scramSha512 hsha512 huser hpass
  · exact awsIAMMechanism_ok haws h
  · exact gcpIAMMechanism_ok hoauth hgcp h
  · exact oauthOIDCMechanism_ok hoauth h

/-- A mechanism that is built is the one selected, and no key of another was given. -/
theorem saslMechanism_ok (h : s.saslMechanism env = .ok m) :
    Selected s m ∧ (s.hasAWSKeys → s.mechanismName = "AWS_MSK_IAM") ∧
      (s.hasOAuthKeys → s.mechanismName = "OAUTHBEARER") ∧
      (s.hasGCPKeys → s.mechanismName = "OAUTHBEARER" ∧ s.field .oauthMethod = "gcp") := by
  obtain ⟨_, -, h⟩ := bind_eq_ok.mp h
  obtain ⟨_, haws, h⟩ := bind_eq_ok.mp h
  obtain ⟨_, hoauth, h⟩ := bind_eq_ok.mp h
  obtain ⟨_, hgcp, h⟩ := bind_eq_ok.mp h
  rw [reject_eq_ok, not_and, not_not] at haws hoauth hgcp
  exact ⟨selectMechanism_ok h, haws, hoauth, hgcp⟩

end

end LlingrKafka.Security

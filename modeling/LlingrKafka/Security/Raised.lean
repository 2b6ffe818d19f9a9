import LlingrKafka.Security.Build

/-!
# Why a security configuration is refused

`Raised` gives each error of `build` the condition on the fields, or the failure outside the
program, that it stands for, and `raised_of_build` says that no error is returned without
it.  An error with the adapter's code is a credential source that failed
(`credentialFailure_of_build`).
-/

namespace LlingrKafka.Security

open Checks

section

variable {Roots Cert : Type} (env : SecurityEnv Roots Cert) (s : FranzSecurity)

/-- The mechanisms of the switch that take a user name and a password. -/
def userPassNames : List String := ["PLAIN", "SCRAM-SHA-256", "SCRAM-SHA-512"]

/-- The mechanisms of the switch. -/
def mechanismNames : List String := userPassNames ++ ["AWS_MSK_IAM", "OAUTHBEARER", "GSSAPI"]

/-- The keys name the AWS mechanism, the OIDC method, or the GCP method. -/
def FranzSecurity.NamesAWS : Prop := s.mechanismName = "AWS_MSK_IAM"

def FranzSecurity.NamesOIDC : Prop :=
  s.mechanismName = "OAUTHBEARER" ∧ s.field .oauthMethod ≠ "gcp"

def FranzSecurity.NamesGCP : Prop :=
  s.mechanismName = "OAUTHBEARER" ∧ s.field .oauthMethod = "gcp"

/-- The protocols of the switch. -/
def protocolNames : List String := ["plaintext", "ssl", "sasl_plaintext", "sasl_ssl"]

/-- What each error stands for. -/
inductive Raised : SecurityFault → Prop
  | protocolMissing (h : s.field .protocol = "") : Raised .protocolMissing
  | plaintextConflict (h : s.field .protocol = "plaintext")
      (hkeys : s.hasSSLKeys ∨ s.hasSASLKeys) : Raised .plaintextConflict
  | saslRequires (h : s.field .protocol = "ssl") (hkeys : s.hasSASLKeys) :
      Raised (.saslRequires (s.field .protocol))
  | sslRequires (h : s.field .protocol = "sasl_plaintext") (hkeys : s.hasSSLKeys) :
      Raised (.sslRequires (s.field .protocol))
  | protocolUnknown (h : s.field .protocol ∉ protocolNames) :
      Raised (.protocolUnknown (s.field .protocol))
  | keyPassword (h : s.field .keyPassword ≠ "") : Raised .keyPassword
  | caExclusive (h : s.field .caLocation ≠ "" ∧ s.field .caPEM ≠ "") : Raised .caExclusive
  | caLocation (err : String) (h : env.readFile (s.field .caLocation) = .error err) :
      Raised (.caLocation err)
  | caUnparseable (pem : Utf8.Bytes) (h : env.certPool pem = none) : Raised .caUnparseable
  | certificateExclusive (hlocation : s.field .certLocation ≠ "" ∨ s.field .keyLocation ≠ "")
      (hpem : s.field .certPEM ≠ "" ∨ s.field .keyPEM ≠ "") : Raised .certificateExclusive
  | certificateLocationHalf (hgiven : s.field .certLocation ≠ "" ∨ s.field .keyLocation ≠ "")
      (h : s.field .certLocation = "" ∨ s.field .keyLocation = "") :
      Raised .certificateLocationHalf
  | certificateLoading (err : String)
      (h : env.loadX509KeyPair (s.field .certLocation) (s.field .keyLocation) = .error err) :
      Raised (.certificateLoading err)
  | certificatePemHalf (hgiven : s.field .certPEM ≠ "" ∨ s.field .keyPEM ≠ "")
      (h : s.field .certPEM = "" ∨ s.field .keyPEM = "") : Raised .certificatePemHalf
  | certificateParsing (err : String)
      (h : env.x509KeyPair (Utf8.encode (s.field .certPEM)) (Utf8.encode (s.field .keyPEM)) =
        .error err) :
      Raised (.certificateParsing err)
  | verification (h : ¬ ValidVerification (s.field .verifyCerts)) :
      Raised (.verification (s.field .verifyCerts))
  | endpoint (h : ¬ ValidEndpoint (s.field .endpointIdent)) :
      Raised (.endpoint (s.field .endpointIdent))
  | mechanismMissing (huses : UsesSASL (s.field .protocol)) (h : s.mechanismName = "") :
      Raised (.mechanismMissing (s.field .protocol))
  | awsOrphaned (hkeys : s.hasAWSKeys) (h : s.mechanismName ≠ "AWS_MSK_IAM") :
      Raised (.awsOrphaned s.mechanismName)
  | oauthOrphaned (hkeys : s.hasOAuthKeys) (h : s.mechanismName ≠ "OAUTHBEARER") :
      Raised (.oauthOrphaned s.mechanismName)
  | gcpOrphaned (hkeys : s.hasGCPKeys) (h : ¬ s.NamesGCP) : Raised .gcpOrphaned
  | usernameMissing (h : s.mechanismName ∈ userPassNames) (huser : s.field .username = "") :
      Raised (.usernameMissing s.mechanismName)
  | passwordMissing (h : s.mechanismName ∈ userPassNames) (hpass : s.field .password = "") :
      Raised (.passwordMissing s.mechanismName)
  | gssapi (h : s.mechanismName = "GSSAPI") : Raised .gssapi
  | mechanismUnsupported (hgiven : s.mechanismName ≠ "") (h : s.mechanismName ∉ mechanismNames) :
      Raised (.mechanismUnsupported s.mechanismName)
  | awsProtocol (h : s.NamesAWS) (hprotocol : s.field .protocol ≠ "sasl_ssl") :
      Raised (.awsProtocol (s.field .protocol))
  | awsUserPass (h : s.NamesAWS) (hkeys : s.field .username ≠ "" ∨ s.field .password ≠ "") :
      Raised .awsUserPass
  | awsSessionName (h : s.field .awsRoleSessionName ≠ "" ∧ s.field .awsRoleARN = "") :
      Raised .awsSessionName
  | awsConfig (err : String)
      (h : env.awsConfig (s.field .awsRegion) (s.field .awsProfile) = .error err) :
      Raised (.awsConfig err)
  | awsCredentials (err : String)
      (h : env.awsRetrieve (s.field .awsRegion) (s.field .awsProfile) (s.field .awsRoleARN)
        (s.field .awsRoleSessionName) = .error err) :
      Raised (.awsCredentials err)
  | oidcUserPass (h : s.NamesOIDC) (hkeys : s.field .username ≠ "" ∨ s.field .password ≠ "") :
      Raised .oidcUserPass
  | oauthMethod (h : s.NamesOIDC)
      (hmethod : s.field .oauthMethod ≠ "" ∧ s.field .oauthMethod ≠ "oidc") :
      Raised (.oauthMethod (s.field .oauthMethod))
  | oidcEndpoint (h : s.NamesOIDC) (hendpoint : s.field .oauthTokenEndpoint = "") :
      Raised .oidcEndpoint
  | oidcClient (h : s.NamesOIDC)
      (hclient : s.field .oauthClientID = "" ∨ s.field .oauthClientSecret = "") :
      Raised .oidcClient
  | extensions (raw : String)
      (h : parseOAuthExtensions (s.field .oauthExtensions) = .error (.extensions raw)) :
      Raised (.extensions raw)
  | oidcToken (err : String)
      (h : env.oidcToken (s.field .oauthTokenEndpoint) (s.field .oauthClientID)
        (s.field .oauthClientSecret) (s.field .oauthScope) = .error err) :
      Raised (.oidcToken err)
  | gcpProtocol (h : s.NamesGCP) (hprotocol : s.field .protocol ≠ "sasl_ssl") :
      Raised (.gcpProtocol (s.field .protocol))
  | gcpUserPass (h : s.NamesGCP) (hkeys : s.field .username ≠ "" ∨ s.field .password ≠ "") :
      Raised .gcpUserPass
  | gcpOidcKeys (h : s.NamesGCP) (hkeys : s.HasAny oidcFields) : Raised .gcpOidcKeys
  | gcpCredentialsFile (err : String)
      (h : env.readFile (s.field .gcpCredentialsFile) = .error err) :
      Raised (.gcpCredentialsFile err)
  | gcpCredentials (err : String)
      (h : (∃ data, env.gcpCredentialsFromJSON data = .error err) ∨
        env.gcpDefaultCredentials = .error err) :
      Raised (.gcpCredentials err)
  | gcpPrincipal (h : s.field .gcpPrincipal = "") : Raised .gcpPrincipal
  | gcpToken (credentials : Utf8.Bytes) (err : String)
      (h : env.gcpToken credentials = .error (some err)) : Raised (.gcpToken err)
  | gcpTimeout (credentials : Utf8.Bytes) (h : env.gcpToken credentials = .error none) :
      Raised .gcpTimeout

end

section

variable {Roots Cert : Type} {env : SecurityEnv Roots Cert} {s : FranzSecurity}
  {f : SecurityFault}

theorem raised_of_checkProtocol (h : s.checkProtocol = .error f) : Raised env s f := by
  unfold FranzSecurity.checkProtocol at h
  split_ifs at h with hempty hplaintext hssl hsasl hboth
  · obtain rfl := Except.error.inj h
    exact .protocolMissing hempty
  · obtain ⟨hkeys, rfl⟩ := reject_eq_error.mp h
    exact .plaintextConflict hplaintext hkeys
  · obtain ⟨hkeys, rfl⟩ := reject_eq_error.mp h
    exact .saslRequires hssl hkeys
  · obtain ⟨hkeys, rfl⟩ := reject_eq_error.mp h
    exact .sslRequires hsasl hkeys
  · obtain rfl := Except.error.inj h
    exact .protocolUnknown (by simp [protocolNames, hplaintext, hssl, hsasl, hboth])

theorem raised_of_rootCAs (h : s.rootCAs env.toTlsEnv = .error f) : Raised env s f := by
  unfold FranzSecurity.rootCAs at h
  rcases reject_bind_eq_error.mp h with ⟨hboth, rfl⟩ | ⟨-, h⟩
  · exact .caExclusive hboth
  · split_ifs at h
    rcases bind_eq_error.mp h with hbytes | ⟨pem, -, h⟩
    · unfold FranzSecurity.caBytes at hbytes
      split_ifs at hbytes
      obtain ⟨err, herr, rfl⟩ := mapError_eq_error.mp hbytes
      exact .caLocation err herr
    · split at h
      · rename_i hpool
        obtain rfl := Except.error.inj h
        exact .caUnparseable pem hpool
      · cases h

theorem raised_of_certificates (h : s.certificates env.toTlsEnv = .error f) :
    Raised env s f := by
  unfold FranzSecurity.certificates at h
  simp only at h
  split_ifs at h with hboth hlocation hpem
  · obtain rfl := Except.error.inj h
    exact .certificateExclusive hboth.1 hboth.2
  · rcases reject_bind_eq_error.mp h with ⟨hhalf, rfl⟩ | ⟨-, h⟩
    · exact .certificateLocationHalf hlocation hhalf
    · rcases bind_eq_error.mp h with hload | ⟨_, -, h⟩
      · obtain ⟨err, herr, rfl⟩ := mapError_eq_error.mp hload
        exact .certificateLoading err herr
      · cases h
  · rcases reject_bind_eq_error.mp h with ⟨hhalf, rfl⟩ | ⟨-, h⟩
    · exact .certificatePemHalf hpem hhalf
    · rcases bind_eq_error.mp h with hparse | ⟨_, -, h⟩
      · obtain ⟨err, herr, rfl⟩ := mapError_eq_error.mp hparse
        exact .certificateParsing err herr
      · cases h

theorem raised_of_tlsConfig (h : s.tlsConfig env.toTlsEnv = .error f) : Raised env s f := by
  unfold FranzSecurity.tlsConfig at h
  rcases reject_bind_eq_error.mp h with ⟨hpassword, rfl⟩ | ⟨-, h⟩
  · exact .keyPassword hpassword
  rcases bind_eq_error.mp h with hroots | ⟨roots, -, h⟩
  · exact raised_of_rootCAs hroots
  rcases bind_eq_error.mp h with hcertificates | ⟨certificates, -, h⟩
  · exact raised_of_certificates hcertificates
  split_ifs at h with hoff hverify hhttps hnone
  · obtain rfl := Except.error.inj h
    exact .endpoint (by simp [ValidEndpoint, hnone, not_or.mp hhttps])
  · obtain rfl := Except.error.inj h
    exact .verification (by simp [ValidVerification, hoff, not_or.mp hverify])

theorem raised_of_userPassMechanism {make : String → String → Mechanism}
    (hname : s.mechanismName ∈ userPassNames)
    (h : userPassMechanism s s.mechanismName make = .error f) : Raised env s f := by
  rcases reject_bind_eq_error.mp h with ⟨huser, rfl⟩ | ⟨-, h⟩
  · exact .usernameMissing hname huser
  rcases reject_bind_eq_error.mp h with ⟨hpass, rfl⟩ | ⟨-, h⟩
  · exact .passwordMissing hname hpass
  · cases h

theorem raised_of_awsIAMMechanism (hname : s.NamesAWS)
    (h : awsIAMMechanism env s = .error f) : Raised env s f := by
  rcases reject_bind_eq_error.mp h with ⟨hprotocol, rfl⟩ | ⟨-, h⟩
  · exact .awsProtocol hname hprotocol
  rcases reject_bind_eq_error.mp h with ⟨hkeys, rfl⟩ | ⟨-, h⟩
  · exact .awsUserPass hname hkeys
  rcases reject_bind_eq_error.mp h with ⟨hsession, rfl⟩ | ⟨-, h⟩
  · exact .awsSessionName hsession
  rcases bind_eq_error.mp h with hconfig | ⟨_, -, h⟩
  · obtain ⟨err, herr, rfl⟩ := mapError_eq_error.mp hconfig
    exact .awsConfig err herr
  rcases bind_eq_error.mp h with hretrieve | ⟨_, -, h⟩
  · obtain ⟨err, herr, rfl⟩ := mapError_eq_error.mp hretrieve
    exact .awsCredentials err herr
  · cases h

/-- The only error of the extensions is about the text they are parsed from. -/
theorem extensions_of_storeExtension {raw : String} {out : String → Option String}
    {piece : List Char} (h : storeExtension raw out piece = .error f) : f = .extensions raw := by
  unfold storeExtension at h
  simp only at h
  split_ifs at h
  split at h
  · exact (Except.error.inj h).symm
  · split_ifs at h
    exact (Except.error.inj h).symm

theorem extensions_of_foldlM {raw : String} {pieces : List (List Char)}
    {out : String → Option String} (h : pieces.foldlM (storeExtension raw) out = .error f) :
    f = .extensions raw := by
  induction pieces generalizing out with
  | nil => cases h
  | cons piece pieces ih =>
      rw [List.foldlM_cons] at h
      rcases bind_eq_error.mp h with hpiece | ⟨out', -, h⟩
      · exact extensions_of_storeExtension hpiece
      · exact ih h

theorem extensions_of_parseOAuthExtensions {raw : String}
    (h : parseOAuthExtensions raw = .error f) : f = .extensions (Text.trimSpace raw) := by
  unfold parseOAuthExtensions at h
  simp only at h
  split_ifs at h
  exact extensions_of_foldlM h

theorem raised_of_oauthOIDCMechanism (hname : s.NamesOIDC)
    (h : oauthOIDCMechanism env s = .error f) : Raised env s f := by
  rcases reject_bind_eq_error.mp h with ⟨hkeys, rfl⟩ | ⟨-, h⟩
  · exact .oidcUserPass hname hkeys
  rcases reject_bind_eq_error.mp h with ⟨hmethod, rfl⟩ | ⟨-, h⟩
  · exact .oauthMethod hname hmethod
  rcases reject_bind_eq_error.mp h with ⟨hendpoint, rfl⟩ | ⟨-, h⟩
  · exact .oidcEndpoint hname hendpoint
  rcases reject_bind_eq_error.mp h with ⟨hclient, rfl⟩ | ⟨-, h⟩
  · exact .oidcClient hname hclient
  rcases bind_eq_error.mp h with hextensions | ⟨_, -, h⟩
  · obtain rfl := extensions_of_parseOAuthExtensions hextensions
    exact .extensions _ hextensions
  rcases bind_eq_error.mp h with htoken | ⟨_, -, h⟩
  · obtain ⟨err, herr, rfl⟩ := mapError_eq_error.mp htoken
    exact .oidcToken err herr
  · cases h

theorem raised_of_gcpCredentials (h : gcpCredentials env s = .error f) : Raised env s f := by
  unfold gcpCredentials at h
  split_ifs at h
  · rcases bind_eq_error.mp h with hfile | ⟨data, -, h⟩
    · obtain ⟨err, herr, rfl⟩ := mapError_eq_error.mp hfile
      exact .gcpCredentialsFile err herr
    · obtain ⟨err, herr, rfl⟩ := mapError_eq_error.mp h
      exact .gcpCredentials err (.inl ⟨data, herr⟩)
  · obtain ⟨err, herr, rfl⟩ := mapError_eq_error.mp h
    exact .gcpCredentials err (.inr herr)

theorem raised_of_gcpIAMMechanism (hname : s.NamesGCP)
    (h : gcpIAMMechanism env s = .error f) : Raised env s f := by
  rcases reject_bind_eq_error.mp h with ⟨hprotocol, rfl⟩ | ⟨-, h⟩
  · exact .gcpProtocol hname hprotocol
  rcases reject_bind_eq_error.mp h with ⟨hkeys, rfl⟩ | ⟨-, h⟩
  · exact .gcpUserPass hname hkeys
  rcases reject_bind_eq_error.mp h with ⟨hoidc, rfl⟩ | ⟨-, h⟩
  · exact .gcpOidcKeys hname hoidc
  rcases bind_eq_error.mp h with hcredentials | ⟨credentials, -, h⟩
  · exact raised_of_gcpCredentials hcredentials
  rcases bind_eq_error.mp h with hprincipal | ⟨principal, -, h⟩
  · unfold gcpPrincipal at hprincipal
    split_ifs at hprincipal with hconfigured
    obtain rfl := Except.error.inj hprincipal
    exact .gcpPrincipal (not_not.mp hconfigured)
  rcases bind_eq_error.mp h with htoken | ⟨_, -, h⟩
  · obtain ⟨err, herr, rfl⟩ := mapError_eq_error.mp htoken
    cases err with
    | none => exact .gcpTimeout credentials herr
    | some err => exact .gcpToken credentials err herr
  · cases h

theorem raised_of_selectMechanism (hgiven : s.mechanismName ≠ "")
    (h : selectMechanism env s s.mechanismName = .error f) : Raised env s f := by
  unfold selectMechanism at h
  split_ifs at h with hplain hsha256 hsha512 haws hoauth hgcp hgssapi
  · exact raised_of_userPassMechanism (by simp [userPassNames, hplain]) h
  · exact raised_of_userPassMechanism (by simp [userPassNames, hsha256]) h
  · exact raised_of_userPassMechanism (by simp [userPassNames, hsha512]) h
  · exact raised_of_awsIAMMechanism haws h
  · exact raised_of_gcpIAMMechanism ⟨hoauth, hgcp⟩ h
  · exact raised_of_oauthOIDCMechanism ⟨hoauth, hgcp⟩ h
  · obtain rfl := Except.error.inj h
    exact .gssapi hgssapi
  · obtain rfl := Except.error.inj h
    refine .mechanismUnsupported hgiven ?_
    simp [mechanismNames, userPassNames, hplain, hsha256, hsha512, haws, hoauth, hgssapi]

theorem raised_of_saslMechanism (huses : UsesSASL (s.field .protocol))
    (h : s.saslMechanism env = .error f) : Raised env s f := by
  rcases reject_bind_eq_error.mp h with ⟨hmissing, rfl⟩ | ⟨hgiven, h⟩
  · exact .mechanismMissing huses hmissing
  rcases reject_bind_eq_error.mp h with ⟨haws, rfl⟩ | ⟨-, h⟩
  · exact .awsOrphaned haws.1 haws.2
  rcases reject_bind_eq_error.mp h with ⟨hoauth, rfl⟩ | ⟨-, h⟩
  · exact .oauthOrphaned hoauth.1 hoauth.2
  rcases reject_bind_eq_error.mp h with ⟨hgcp, rfl⟩ | ⟨-, h⟩
  · exact .gcpOrphaned hgcp.1 hgcp.2
  · exact raised_of_selectMechanism hgiven h

/-- An error of `build` is raised for its reason. -/
theorem raised_of_build (h : s.build env = .error f) : Raised env s f := by
  unfold FranzSecurity.build at h
  split_ifs at h
  rcases bind_eq_error.mp h with hprotocol | ⟨_, -, h⟩
  · exact raised_of_checkProtocol hprotocol
  rcases bind_eq_error.mp h with htls | ⟨tlsOpts, -, h⟩
  · unfold FranzSecurity.tlsOpts at htls
    split_ifs at htls
    rcases bind_eq_error.mp htls with hcfg | ⟨cfg, -, htls⟩
    · exact raised_of_tlsConfig hcfg
    · cases htls
  rcases bind_eq_error.mp h with hsasl | ⟨saslOpts, -, h⟩
  · unfold FranzSecurity.saslOpts at hsasl
    split_ifs at hsasl with huses
    rcases bind_eq_error.mp hsasl with hm | ⟨m, -, hsasl⟩
    · exact raised_of_saslMechanism huses hm
    · cases hsasl
  · cases h

/-- A credential source that failed. -/
def CredentialFailure (env : SecurityEnv Roots Cert) : SecurityFault → Prop
  | .awsConfig err => ∃ region profile, env.awsConfig region profile = .error err
  | .awsCredentials err => ∃ region profile roleARN roleSessionName,
      env.awsRetrieve region profile roleARN roleSessionName = .error err
  | .oidcToken err => ∃ endpoint clientID clientSecret scope,
      env.oidcToken endpoint clientID clientSecret scope = .error err
  | .gcpCredentials err => (∃ data, env.gcpCredentialsFromJSON data = .error err) ∨
      env.gcpDefaultCredentials = .error err
  | .gcpToken err => ∃ credentials, env.gcpToken credentials = .error (some err)
  | .gcpTimeout => ∃ credentials, env.gcpToken credentials = .error none
  | _ => False

/-- The security keys are a bad option, or a credential source failed. -/
theorem credentialFailure_of_build (h : s.build env = .error f) :
    f.code = .badOption ∨ (f.code = .adapter ∧ CredentialFailure env f) := by
  cases raised_of_build h with
  | awsConfig err herr => exact .inr ⟨rfl, _, _, herr⟩
  | awsCredentials err herr => exact .inr ⟨rfl, _, _, _, _, herr⟩
  | oidcToken err herr => exact .inr ⟨rfl, _, _, _, _, herr⟩
  | gcpCredentials err herr => exact .inr ⟨rfl, herr⟩
  | gcpToken credentials err herr => exact .inr ⟨rfl, credentials, herr⟩
  | gcpTimeout credentials herr => exact .inr ⟨rfl, credentials, herr⟩
  | _ => exact .inl rfl

end

end LlingrKafka.Security

import LlingrKafka.Builder.Conflicts
import LlingrKafka.Security.Raised

/-!
# The security fields of a typed builder

Without string pairs the fields the bridge collects are those the typed setters wrote
(`fieldOf`), and the setters leave little in them: the protocol matches the TLS flag and the
mechanism, and the fields of a mechanism are empty unless it was chosen.  So of the errors
of the security stage only those about values can be raised (`valueFault_of_raised`).
-/

namespace LlingrKafka.Builder

open Security

/-- A typed setter gave the field, a blank value. -/
def BlankArgument (o : Options) (f : SecurityField) : Prop :=
  ∃ value, Assoc.last o.securityEntries f.key = some value ∧ f.normal value = ""

/-- The errors of the security stage that are about a value, a file or a credential source,
and not about which keys there are: where a field is missing, it was given a blank value. -/
def ValueFault (o : Options) : SecurityFault → Prop
  | .usernameMissing _ => BlankArgument o .username
  | .passwordMissing _ => BlankArgument o .password
  | .awsSessionName => BlankArgument o .awsRoleARN
  | .oidcEndpoint => BlankArgument o .oauthTokenEndpoint
  | .oidcClient => BlankArgument o .oauthClientID ∨ BlankArgument o .oauthClientSecret
  | .certificateLocationHalf => BlankArgument o .certLocation ∨ BlankArgument o .keyLocation
  | .certificatePemHalf => BlankArgument o .certPEM ∨ BlankArgument o .keyPEM
  | .caExclusive | .caLocation _ | .caUnparseable | .certificateExclusive
  | .certificateLoading _ | .certificateParsing _ | .awsConfig _ | .awsCredentials _
  | .extensions _ | .oidcToken _ | .gcpCredentialsFile _ | .gcpCredentials _ | .gcpPrincipal
  | .gcpToken _ | .gcpTimeout => True
  | _ => False

/-- The name of a mechanism. -/
def Sasl.name : Sasl → String
  | userPass mechanism _ _ => mechanism.asStr
  | awsMskIam .. => "AWS_MSK_IAM"
  | oauthbearerOidc .. | gcpIam .. => "OAUTHBEARER"

/-- The OAUTHBEARER method of a mechanism. -/
def Sasl.method : Sasl → String
  | gcpIam .. => "gcp"
  | _ => ""

/-- The fields of a mechanism. -/
def Sasl.fields : Sasl → List SecurityField
  | userPass .. => [.mechanism, .username, .password]
  | awsMskIam .. => .mechanism :: awsFields
  | oauthbearerOidc .. => .mechanism :: oidcFields
  | gcpIam .. => .mechanism :: .oauthMethod :: gcpFields

theorem mem_fields {sasl : Sasl} {f : SecurityField} (h : f.key ∈ Options.saslKeys sasl) :
    f ∈ sasl.fields := by
  cases sasl <;> simp only [Options.saslKeys, Sasl.fields] at h ⊢ <;> cases f <;> revert h <;>
    decide

/-- Fields of one family belong to one kind of mechanism. -/
theorem userPass_of_mem_fields {sasl : Sasl} {f : SecurityField} (h : f ∈ sasl.fields)
    (hf : f = .username ∨ f = .password) : sasl.name ∈ userPassNames := by
  cases sasl with
  | userPass mechanism _ _ =>
      cases mechanism <;> simp [Sasl.name, SaslMechanism.asStr, userPassNames]
  | awsMskIam | oauthbearerOidc | gcpIam =>
      rcases hf with rfl | rfl <;> exact absurd h (by simp only [Sasl.fields]; decide)

theorem aws_of_mem_fields {sasl : Sasl} {f : SecurityField} (h : f ∈ sasl.fields)
    (hf : f ∈ awsFields) : sasl.name = "AWS_MSK_IAM" := by
  cases sasl with
  | awsMskIam => rfl
  | userPass | oauthbearerOidc | gcpIam =>
      simp only [Sasl.fields] at h
      exact absurd hf (by revert h; revert f; decide)

theorem oidc_of_mem_fields {sasl : Sasl} {f : SecurityField} (h : f ∈ sasl.fields)
    (hf : f ∈ oidcFields) : sasl.name = "OAUTHBEARER" ∧ sasl.method = "" := by
  cases sasl with
  | oauthbearerOidc => exact ⟨rfl, rfl⟩
  | userPass | awsMskIam | gcpIam =>
      simp only [Sasl.fields] at h
      exact absurd hf (by revert h; revert f; decide)

theorem gcp_of_mem_fields {sasl : Sasl} {f : SecurityField} (h : f ∈ sasl.fields)
    (hf : f ∈ .oauthMethod :: gcpFields) : sasl.name = "OAUTHBEARER" ∧ sasl.method = "gcp" := by
  cases sasl with
  | gcpIam => exact ⟨rfl, rfl⟩
  | userPass | awsMskIam | oauthbearerOidc =>
      simp only [Sasl.fields] at h
      exact absurd hf (by revert h; revert f; decide)

/-- What the typed setters leave in a field. -/
def fieldOf (o : Options) (f : SecurityField) : String :=
  ((Assoc.last o.securityEntries f.key).map f.normal).getD ""

section

variable {o : Options}

/-- An empty field that was given has a blank value. -/
theorem blankArgument_of_mem {f : SecurityField} (hmem : f.key ∈ o.securityEntries.map Prod.fst)
    (hempty : fieldOf o f = "") : BlankArgument o f := by
  cases hlast : Assoc.last o.securityEntries f.key with
  | none => exact absurd hmem (Assoc.last_eq_none_iff.mp hlast)
  | some value =>
      rw [fieldOf, hlast] at hempty
      exact ⟨value, hlast, hempty⟩

theorem mem_of_fieldOf_ne {f : SecurityField} (hne : fieldOf o f ≠ "") :
    f.key ∈ o.securityEntries.map Prod.fst := by
  by_contra hno
  rw [fieldOf, Assoc.last_eq_none_iff.mpr hno] at hne
  exact hne rfl

/-- A TLS field has the value of the TLS setters. -/
theorem fieldOf_tls (hactive : o.securityActive = true) {f : SecurityField}
    (hf : f.key ∈ tlsKeys) :
    fieldOf o f = ((Assoc.last o.sslEntries f.key).map f.normal).getD "" := by
  rw [fieldOf, last_securityEntries_of_not_mem hactive]
  · rintro heq
    rw [heq] at hf
    exact absurd hf (by decide)
  · intro sasl _ hmem
    exact not_mem_saslKeys (List.mem_cons_of_mem _ hf) (mem_saslKeys hmem).1

/-- The name of the chosen mechanism. -/
theorem fieldOf_mechanism {sasl : Sasl} (hsasl : sasl ∈ o.sasl) :
    fieldOf o .mechanism = sasl.name := by
  have hmem : (SecurityField.mechanism.key, sasl.name) ∈ sasl.entries := by
    cases sasl <;> simp [Sasl.entries, Sasl.name, SecurityField.key]
  rw [fieldOf, last_saslEntries hsasl hmem]
  rfl

variable (htyped : TypedSecurity o)

include htyped

theorem fieldOf_protocol (hactive : o.securityActive = true) :
    fieldOf o .protocol = o.protocol := by
  have hlast := last_protocol htyped hactive
  show ((Assoc.last o.securityEntries "security.protocol").map _).getD "" = _
  rw [hlast, Option.map_some, Option.getD_some]
  unfold Options.protocol
  split <;> decide

/-- A field beyond TLS and the protocol is the chosen mechanism's. -/
theorem entry_of_fieldOf {f : SecurityField} (hf : f.key ∉ "security.protocol" :: tlsKeys)
    (hne : fieldOf o f ≠ "") : ∃ sasl ∈ o.sasl, f.key ∈ sasl.entries.map Prod.fst :=
  (mem_securityEntries htyped (mem_of_fieldOf_ne hne)).resolve_left hf

theorem sasl_of_fieldOf {f : SecurityField} (hf : f.key ∉ "security.protocol" :: tlsKeys)
    (hne : fieldOf o f ≠ "") : ∃ sasl ∈ o.sasl, f ∈ sasl.fields := by
  obtain ⟨sasl, hsasl, hkey⟩ := entry_of_fieldOf htyped hf hne
  exact ⟨sasl, hsasl, mem_fields (mem_saslKeys hkey).1⟩

theorem fieldOf_keyPassword : fieldOf o .keyPassword = "" := by
  by_contra hne
  obtain ⟨sasl, -, hfield⟩ := sasl_of_fieldOf htyped (f := .keyPassword) (by decide) hne
  cases sasl <;> (simp only [Sasl.fields] at hfield; revert hfield; decide)

/-- Without TLS no TLS field was given. -/
theorem fieldOf_ssl (hactive : o.securityActive = true) (htls : o.tls = false) {f : SecurityField}
    (hf : f ∈ sslFields) : fieldOf o f = "" := by
  have hnil : o.sslEntries = [] := by
    by_contra hne
    rw [htyped.tls_of_pairs hne] at htls
    cases htls
  by_cases hpassword : f = .keyPassword
  · rw [hpassword]
    exact fieldOf_keyPassword htyped
  · have hkeys : ∀ f ∈ sslFields, f ≠ .keyPassword → f.key ∈ tlsKeys := by decide
    rw [fieldOf_tls hactive (hkeys f hf hpassword), hnil]
    rfl

/-- A TLS toggle was switched off, or not given. -/
theorem fieldOf_toggle (hactive : o.securityActive = true) (f : SecurityField) (off : String)
    (hf : f.key ∈ tlsKeys) (hoff : f.normal off = off)
    (hvalue : ∀ v, IsTlsPair (f.key, v) → v = off) : fieldOf o f = "" ∨ fieldOf o f = off := by
  rw [fieldOf_tls hactive hf]
  cases hlast : Assoc.last o.sslEntries f.key with
  | none => exact .inl rfl
  | some v =>
      obtain ⟨before, after, heq, -⟩ := Assoc.last_eq_some_iff.mp hlast
      have hpair := htyped.pairs (f.key, v) (heq ▸ List.mem_append_right _ List.mem_cons_self)
      rw [hvalue v hpair]
      exact .inr hoff

theorem fieldOf_oauthMethod {sasl : Sasl} (hsasl : sasl ∈ o.sasl) :
    fieldOf o .oauthMethod = sasl.method := by
  by_cases hgcp : sasl.method = "gcp"
  · have hmem : (SecurityField.oauthMethod.key, "gcp") ∈ sasl.entries := by
      cases sasl <;> simp_all [Sasl.method, Sasl.entries, SecurityField.key]
    rw [fieldOf, last_saslEntries hsasl hmem, hgcp]
    decide
  · have hnone : sasl.method = "" := by
      cases sasl <;> simp_all [Sasl.method]
    rw [hnone]
    by_contra hne
    obtain ⟨sasl', hsasl', hfield⟩ := sasl_of_fieldOf htyped (f := .oauthMethod) (by decide) hne
    obtain rfl : sasl' = sasl := Option.some_inj.mp (hsasl'.symm.trans hsasl)
    exact hgcp (gcp_of_mem_fields hfield List.mem_cons_self).2

end

/-- A certificate is given together with its key. -/
structure CertificatePairs (o : Options) : Prop where
  location : SecurityField.certLocation.key ∈ o.sslEntries.map Prod.fst ↔
    SecurityField.keyLocation.key ∈ o.sslEntries.map Prod.fst
  pem : SecurityField.certPEM.key ∈ o.sslEntries.map Prod.fst ↔
    SecurityField.keyPEM.key ∈ o.sslEntries.map Prod.fst

theorem certificatePairs_build {durationMsCeil : ℕ → ℕ} (calls : List Call) :
    CertificatePairs (Options.build durationMsCeil calls) := by
  have hcall : ∀ call : Call,
      (SecurityField.certLocation.key ∈ call.tlsPairs.map Prod.fst ↔
        SecurityField.keyLocation.key ∈ call.tlsPairs.map Prod.fst) ∧
      (SecurityField.certPEM.key ∈ call.tlsPairs.map Prod.fst ↔
        SecurityField.keyPEM.key ∈ call.tlsPairs.map Prod.fst) := by
    intro call
    cases call <;> simp [Call.tlsPairs, SecurityField.key]
  constructor
  · rw [sslEntries_build, List.map_flatMap, List.mem_flatMap, List.mem_flatMap]
    exact exists_congr fun call => and_congr_right fun _ => (hcall call).1
  · rw [sslEntries_build, List.map_flatMap, List.mem_flatMap, List.mem_flatMap]
    exact exists_congr fun call => and_congr_right fun _ => (hcall call).2

/-! ## The errors that are left -/

section

variable {Roots Cert : Type} {env : SecurityEnv Roots Cert} {o : Options} {s : FranzSecurity}

/-- The collected fields are those of an active typed builder. -/
structure Collected (o : Options) (s : FranzSecurity) : Prop where
  typed : TypedSecurity o
  certificates : CertificatePairs o
  active : o.securityActive = true
  field : ∀ f, s.field f = fieldOf o f

namespace Collected

theorem protocol (h : Collected o s) : s.field .protocol = o.protocol := by
  rw [h.field, fieldOf_protocol h.typed h.active]

/-- A SASL protocol needs a mechanism, TLS beside it needs the flag. -/
theorem usesSASL_iff (h : Collected o s) :
    UsesSASL (s.field .protocol) ↔ ∃ sasl, o.sasl = some sasl := by
  have hactive := h.active
  rw [h.protocol, Options.protocol, ← Option.isSome_iff_exists]
  rw [Options.securityActive] at hactive
  cases htls : o.tls <;> cases hs : o.sasl.isSome
  · rw [htls, hs] at hactive
    cases hactive
  all_goals decide

theorem saslSsl_of_tls (h : Collected o s) (htls : o.tls = true) {sasl : Sasl}
    (hsasl : sasl ∈ o.sasl) : s.field .protocol = "sasl_ssl" := by
  rw [h.protocol, Options.protocol, htls, Option.mem_def.mp hsasl]
  rfl

theorem tls_of_protocol (h : Collected o s) (hprotocol : s.field .protocol = "sasl_plaintext") :
    o.tls = false := by
  rw [h.protocol, Options.protocol] at hprotocol
  cases htls : o.tls with
  | false => rfl
  | true =>
      rw [htls] at hprotocol
      cases hs : o.sasl.isSome <;> (rw [hs] at hprotocol; exact absurd hprotocol (by decide))

/-- A field of a mechanism is the chosen one's. -/
theorem sasl_of_ne (h : Collected o s) {f : SecurityField} (hf : f ∈ saslFields)
    (hne : s.field f ≠ "") : ∃ sasl ∈ o.sasl, f ∈ sasl.fields := by
  have hkeys : ∀ f ∈ saslFields, f.key ∉ "security.protocol" :: tlsKeys := by decide
  rw [h.field] at hne
  exact sasl_of_fieldOf h.typed (hkeys f hf) hne

/-- A field the mechanism writes is empty only for a blank argument. -/
theorem blank_of_sasl (h : Collected o s) {sasl : Sasl} (hsasl : sasl ∈ o.sasl) {f : SecurityField}
    (hmem : f.key ∈ sasl.entries.map Prod.fst) (hempty : s.field f = "") : BlankArgument o f := by
  rw [h.field] at hempty
  apply blankArgument_of_mem _ hempty
  rw [Options.securityEntries, if_pos h.active, Option.mem_def.mp hsasl, List.map_cons,
    List.map_append]
  exact List.mem_cons_of_mem _ (List.mem_append_right _ hmem)

/-- Half of a certificate and key is a blank argument. -/
theorem blank_of_half (h : Collected o s) {f g : SecurityField}
    (hf : f.key ∈ tlsKeys) (hg : g.key ∈ tlsKeys)
    (hpair : f.key ∈ o.sslEntries.map Prod.fst ↔ g.key ∈ o.sslEntries.map Prod.fst)
    (hgiven : s.field f ≠ "" ∨ s.field g ≠ "") (hhalf : s.field f = "" ∨ s.field g = "") :
    BlankArgument o f ∨ BlankArgument o g := by
  have hssl : ∀ {k : SecurityField}, k.key ∈ tlsKeys → s.field k ≠ "" →
      k.key ∈ o.sslEntries.map Prod.fst := by
    intro k hk hne
    rw [h.field, fieldOf_tls h.active hk] at hne
    by_contra hno
    rw [Assoc.last_eq_none_iff.mpr hno] at hne
    exact hne rfl
  have hmem : ∀ {k : SecurityField}, k.key ∈ o.sslEntries.map Prod.fst →
      k.key ∈ o.securityEntries.map Prod.fst := by
    intro k hk
    rw [Options.securityEntries, if_pos h.active, List.map_cons, List.map_append]
    exact List.mem_cons_of_mem _ (List.mem_append_left _ hk)
  have hboth : f.key ∈ o.sslEntries.map Prod.fst ∧ g.key ∈ o.sslEntries.map Prod.fst := by
    rcases hgiven with hne | hne
    · exact ⟨hssl hf hne, hpair.mp (hssl hf hne)⟩
    · exact ⟨hpair.mpr (hssl hg hne), hssl hg hne⟩
  refine hhalf.imp (fun hempty => ?_) fun hempty => ?_
  · exact blankArgument_of_mem (hmem hboth.1) (by rw [← h.field, hempty])
  · exact blankArgument_of_mem (hmem hboth.2) (by rw [← h.field, hempty])

theorem mechanismName (h : Collected o s) {sasl : Sasl} (hsasl : sasl ∈ o.sasl) :
    s.mechanismName = sasl.name := by
  rw [FranzSecurity.mechanismName, h.field, fieldOf_mechanism hsasl]
  cases sasl with
  | userPass mechanism _ _ =>
      simp only [Sasl.name]
      cases mechanism <;> decide
  | awsMskIam | oauthbearerOidc | gcpIam =>
      simp only [Sasl.name]
      decide

theorem oauthMethod (h : Collected o s) {sasl : Sasl} (hsasl : sasl ∈ o.sasl) :
    s.field .oauthMethod = sasl.method := by
  rw [h.field, fieldOf_oauthMethod h.typed hsasl]

/-- A mechanism that is named was chosen. -/
theorem sasl_of_name (h : Collected o s) (hne : s.mechanismName ≠ "") :
    ∃ sasl ∈ o.sasl, s.mechanismName = sasl.name := by
  have hfield : s.field .mechanism ≠ "" := by
    intro hempty
    refine hne ?_
    rw [FranzSecurity.mechanismName, hempty]
    decide
  obtain ⟨sasl, hsasl, -⟩ := h.sasl_of_ne (f := .mechanism) (by decide) hfield
  exact ⟨sasl, hsasl, h.mechanismName hsasl⟩

/-- No user name or password is given with another kind of mechanism. -/
theorem userPass (h : Collected o s) (hkeys : s.field .username ≠ "" ∨ s.field .password ≠ "") :
    s.mechanismName ∈ userPassNames := by
  obtain ⟨f, hf, hne⟩ : ∃ f, (f = .username ∨ f = .password) ∧ s.field f ≠ "" := by
    rcases hkeys with hne | hne
    · exact ⟨.username, .inl rfl, hne⟩
    · exact ⟨.password, .inr rfl, hne⟩
  have hmem : f ∈ saslFields := by
    rcases hf with rfl | rfl <;> decide
  obtain ⟨sasl, hsasl, hfield⟩ := h.sasl_of_ne hmem hne
  rw [h.mechanismName hsasl]
  exact userPass_of_mem_fields hfield hf

theorem toggle (h : Collected o s) : ValidVerification (s.field .verifyCerts) ∧
    ValidEndpoint (s.field .endpointIdent) := by
  rw [h.field, h.field]
  constructor
  · have htoggle := fieldOf_toggle h.typed h.active .verifyCerts "false" (by decide) (by decide)
      fun v hpair => by simpa [IsTlsPair, SecurityField.key] using hpair
    exact htoggle.imp id .inr
  · have htoggle := fieldOf_toggle h.typed h.active .endpointIdent "none" (by decide) (by decide)
      fun v hpair => by simpa [IsTlsPair, SecurityField.key] using hpair
    exact htoggle.imp id .inr

/-- The mechanisms that exist only over TLS have it. -/
theorem saslSsl_of_tlsOnly (h : Collected o s) {sasl : Sasl} (hsasl : sasl ∈ o.sasl)
    (honly : sasl.TlsOnly) : s.field .protocol = "sasl_ssl" :=
  h.saslSsl_of_tls (h.typed.tls_of_sasl sasl hsasl honly) hsasl

theorem tlsOnly_of_name {sasl : Sasl} (hname : sasl.name = "AWS_MSK_IAM" ∨ sasl.method = "gcp") :
    sasl.TlsOnly := by
  cases sasl with
  | awsMskIam | gcpIam => trivial
  | userPass mechanism =>
      rcases hname with hname | hmethod
      · cases mechanism <;> exact absurd hname (by simp [Sasl.name, SaslMechanism.asStr])
      · exact absurd hmethod (by simp [Sasl.method])
  | oauthbearerOidc =>
      rcases hname with hname | hmethod
      · exact absurd hname (by simp [Sasl.name])
      · exact absurd hmethod (by simp [Sasl.method])

end Collected

/-- The names of the mechanisms. -/
theorem name_mem (sasl : Sasl) :
    sasl.name ∈ userPassNames ++ ["AWS_MSK_IAM", "OAUTHBEARER"] := by
  cases sasl with
  | userPass mechanism =>
      simp only [Sasl.name]
      cases mechanism <;> decide
  | awsMskIam | oauthbearerOidc | gcpIam =>
      simp only [Sasl.name]
      decide

theorem userPass_of_name {sasl : Sasl} (h : sasl.name ∈ userPassNames) :
    ∃ mechanism username password, sasl = .userPass mechanism username password := by
  cases sasl with
  | userPass mechanism username password => exact ⟨mechanism, username, password, rfl⟩
  | awsMskIam | oauthbearerOidc | gcpIam => exact absurd h (by simp only [Sasl.name]; decide)

theorem oidc_of_name {sasl : Sasl} (hname : sasl.name = "OAUTHBEARER")
    (hmethod : sasl.method ≠ "gcp") :
    ∃ url id secret scope extensions, sasl = .oauthbearerOidc url id secret scope extensions := by
  cases sasl with
  | userPass mechanism =>
      simp only [Sasl.name] at hname
      refine absurd hname ?_
      cases mechanism <;> decide
  | awsMskIam => exact absurd hname (by simp [Sasl.name])
  | oauthbearerOidc url id secret scope extensions =>
      exact ⟨url, id, secret, scope, extensions, rfl⟩
  | gcpIam => exact absurd rfl hmethod

namespace Collected

/-- A user name and a password that are missing were given as blanks. -/
theorem blank_of_userPass (h : Collected o s) (hname : s.mechanismName ∈ userPassNames)
    {f : SecurityField} (hf : f = .username ∨ f = .password) (hempty : s.field f = "") :
    BlankArgument o f := by
  obtain ⟨sasl, hsasl, heq⟩ := h.sasl_of_name (by
    intro hno
    rw [hno] at hname
    exact absurd hname (by decide))
  rw [heq] at hname
  obtain ⟨mechanism, username, password, rfl⟩ := userPass_of_name hname
  refine h.blank_of_sasl hsasl ?_ hempty
  rcases hf with rfl | rfl <;> simp [Sasl.entries, SecurityField.key]

/-- The same for what the OIDC method needs. -/
theorem blank_of_oidc (h : Collected o s) (hname : s.NamesOIDC) {f : SecurityField}
    (hf : f ∈ [.oauthTokenEndpoint, .oauthClientID, .oauthClientSecret])
    (hempty : s.field f = "") : BlankArgument o f := by
  obtain ⟨sasl, hsasl, heq⟩ := h.sasl_of_name (by
    rw [hname.1]
    decide)
  have hmethod : sasl.method ≠ "gcp" := by
    rw [← h.oauthMethod hsasl]
    exact hname.2
  obtain ⟨url, id, secret, scope, extensions, rfl⟩ := oidc_of_name (heq ▸ hname.1) hmethod
  refine h.blank_of_sasl hsasl ?_ hempty
  simp only [List.mem_cons, List.not_mem_nil, or_false] at hf
  rcases hf with rfl | rfl | rfl <;> simp [Sasl.entries, SecurityField.key]

/-- A session name comes with a role, which is blank if it is missing. -/
theorem blank_of_session (h : Collected o s) (hsession : s.field .awsRoleSessionName ≠ "")
    (hempty : s.field .awsRoleARN = "") : BlankArgument o .awsRoleARN := by
  rw [h.field] at hsession
  obtain ⟨sasl, hsasl, hkey⟩ := entry_of_fieldOf h.typed (by decide) hsession
  have hrole := h.typed.session sasl hsasl
  refine h.blank_of_sasl hsasl ?_ hempty
  cases sasl with
  | awsMskIam region profile roleArn roleSessionName =>
      cases roleSessionName with
      | none =>
          refine absurd hkey ?_
          cases region <;> cases profile <;> cases roleArn <;>
            simp [Sasl.entries, optPair, SecurityField.key]
      | some name =>
          obtain ⟨arn, rfl⟩ := Option.isSome_iff_exists.mp (hrole rfl)
          simp [Sasl.entries, optPair, SecurityField.key]
  | userPass | oauthbearerOidc | gcpIam =>
      exact absurd (mem_saslKeys hkey).1 (by simp [Options.saslKeys, SecurityField.key])

/-- A mechanism that is not among the known names, or has no user name and password, is none
that was chosen. -/
theorem name_mem (h : Collected o s) (hne : s.mechanismName ≠ "") :
    s.mechanismName ∈ userPassNames ++ ["AWS_MSK_IAM", "OAUTHBEARER"] := by
  obtain ⟨sasl, -, heq⟩ := h.sasl_of_name hne
  rw [heq]
  exact Builder.name_mem sasl

theorem not_userPass (h : Collected o s) (hname : s.mechanismName ∉ userPassNames) :
    ¬ (s.field .username ≠ "" ∨ s.field .password ≠ "") :=
  fun hkeys => hname (h.userPass hkeys)

theorem saslSsl (h : Collected o s) (hne : s.mechanismName ≠ "")
    (honly : s.mechanismName = "AWS_MSK_IAM" ∨ s.field .oauthMethod = "gcp") :
    s.field .protocol = "sasl_ssl" := by
  obtain ⟨sasl, hsasl, heq⟩ := h.sasl_of_name hne
  rw [heq, h.oauthMethod hsasl] at honly
  exact h.saslSsl_of_tlsOnly hsasl (tlsOnly_of_name honly)

end Collected

/-- Of the errors only those about values are raised. -/
theorem valueFault_of_raised (h : Collected o s) {fault : SecurityFault}
    (hraised : Raised env s fault) : ValueFault o fault := by
  have hprotocol : o.protocol ∈ ["ssl", "sasl_plaintext", "sasl_ssl"] := by
    unfold Options.protocol
    split <;> decide
  cases hraised with
  -- the protocol follows from the TLS flag and the mechanism
  | protocolMissing hempty =>
      rw [h.protocol] at hempty
      rw [hempty] at hprotocol
      exact absurd hprotocol (by decide)
  | plaintextConflict hplaintext =>
      rw [h.protocol] at hplaintext
      rw [hplaintext] at hprotocol
      exact absurd hprotocol (by decide)
  | saslRequires hssl hkeys =>
      obtain ⟨f, hf, hne⟩ := hkeys
      obtain ⟨sasl, hsasl, -⟩ := h.sasl_of_ne hf hne
      have huses := h.usesSASL_iff.mpr ⟨sasl, hsasl⟩
      rw [hssl] at huses
      exact absurd huses (by decide)
  | sslRequires hplaintext hkeys =>
      obtain ⟨f, hf, hne⟩ := hkeys
      rw [h.field, fieldOf_ssl h.typed h.active (h.tls_of_protocol hplaintext) hf] at hne
      exact absurd rfl hne
  | protocolUnknown hunknown =>
      rw [h.protocol] at hunknown
      exact absurd (List.mem_cons_of_mem _ hprotocol) hunknown
  | keyPassword hne =>
      rw [h.field, fieldOf_keyPassword h.typed] at hne
      exact absurd rfl hne
  | verification hinvalid => exact absurd h.toggle.1 hinvalid
  | endpoint hinvalid => exact absurd h.toggle.2 hinvalid
  | certificateLocationHalf hgiven hhalf =>
      exact h.blank_of_half (by decide) (by decide) h.certificates.location hgiven hhalf
  | certificatePemHalf hgiven hhalf =>
      exact h.blank_of_half (by decide) (by decide) h.certificates.pem hgiven hhalf
  -- the fields of a mechanism are empty unless it was chosen
  | mechanismMissing huses hempty =>
      obtain ⟨sasl, hsasl⟩ := h.usesSASL_iff.mp huses
      rw [h.mechanismName hsasl] at hempty
      have hname := name_mem sasl
      rw [hempty] at hname
      exact absurd hname (by decide)
  | awsOrphaned hkeys hother =>
      obtain ⟨f, hf, hne⟩ := hkeys
      obtain ⟨sasl, hsasl, hfield⟩ := h.sasl_of_ne (by simp [saslFields, hf]) hne
      exact absurd ((h.mechanismName hsasl).trans (aws_of_mem_fields hfield hf)) hother
  | oauthOrphaned hkeys hother =>
      obtain ⟨f, hf, hne⟩ := hkeys
      obtain ⟨sasl, hsasl, hfield⟩ := h.sasl_of_ne (by simp [saslFields, hf]) hne
      refine absurd ((h.mechanismName hsasl).trans ?_) hother
      rcases List.mem_append.mp hf with hoidc | hmethod
      · exact (oidc_of_mem_fields hfield hoidc).1
      · rw [List.mem_singleton.mp hmethod] at hfield
        exact (gcp_of_mem_fields hfield List.mem_cons_self).1
  | gcpOrphaned hkeys hother =>
      obtain ⟨f, hf, hne⟩ := hkeys
      obtain ⟨sasl, hsasl, hfield⟩ := h.sasl_of_ne (by simp [saslFields, hf]) hne
      obtain ⟨hname, hmethod⟩ := gcp_of_mem_fields hfield (List.mem_cons_of_mem _ hf)
      exact absurd ⟨(h.mechanismName hsasl).trans hname, (h.oauthMethod hsasl).trans hmethod⟩ hother
  | gssapi hgssapi =>
      have hname := h.name_mem (by rw [hgssapi]; decide)
      rw [hgssapi] at hname
      exact absurd hname (by decide)
  | mechanismUnsupported hgiven hunknown =>
      have hnames : ∀ name ∈ userPassNames ++ ["AWS_MSK_IAM", "OAUTHBEARER"],
          name ∈ mechanismNames := by decide
      exact absurd (hnames _ (h.name_mem hgiven)) hunknown
  | awsProtocol haws hne => exact absurd (h.saslSsl (by rw [haws]; decide) (.inl haws)) hne
  | awsUserPass haws hkeys =>
      exact absurd hkeys (h.not_userPass (by rw [haws]; decide))
  | oidcUserPass hoidc hkeys =>
      exact absurd hkeys (h.not_userPass (by rw [hoidc.1]; decide))
  | gcpUserPass hgcp hkeys =>
      exact absurd hkeys (h.not_userPass (by rw [hgcp.1]; decide))
  | oauthMethod hoidc hmethod =>
      obtain ⟨sasl, hsasl, -⟩ := h.sasl_of_name (by rw [hoidc.1]; decide)
      rw [h.oauthMethod hsasl] at hmethod
      cases sasl with
      | gcpIam => exact absurd (h.oauthMethod hsasl) hoidc.2
      | userPass | awsMskIam | oauthbearerOidc => exact absurd rfl hmethod.1
  | gcpProtocol hgcp hne =>
      exact absurd (h.saslSsl (by rw [hgcp.1]; decide) (.inr hgcp.2)) hne
  | gcpOidcKeys hgcp hkeys =>
      obtain ⟨f, hf, hne⟩ := hkeys
      obtain ⟨sasl, hsasl, hfield⟩ := h.sasl_of_ne (by simp [saslFields, oauthFields, hf]) hne
      have hmethod := (h.oauthMethod hsasl).symm.trans hgcp.2
      rw [(oidc_of_mem_fields hfield hf).2] at hmethod
      exact absurd hmethod (by decide)
  -- a value that is missing was given as a blank
  | usernameMissing hname hempty => exact h.blank_of_userPass hname (.inl rfl) hempty
  | passwordMissing hname hempty => exact h.blank_of_userPass hname (.inr rfl) hempty
  | awsSessionName hsession => exact h.blank_of_session hsession.1 hsession.2
  | oidcEndpoint hname hempty => exact h.blank_of_oidc hname (by decide) hempty
  | oidcClient hname hempty =>
      exact hempty.imp (h.blank_of_oidc hname (by decide)) (h.blank_of_oidc hname (by decide))
  | _ => trivial

end

end LlingrKafka.Builder

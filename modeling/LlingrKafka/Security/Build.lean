import LlingrKafka.Security.Sasl

/-!
# The security posture

`franzSecurity.build` (`bridge/franz_security.go`) and what it guarantees.  `Posture` is
the reading of the given keys the options have to match; `build_posture` that they do,
whatever the keys, their order and the outcome of reading files and resolving credentials.
The one promise about the keys that `build` does not keep is the check of the hostname
toggle when verification is off (`toggles_validated_iff`).
-/

namespace LlingrKafka.Security

open Checks

/-- The options `build` assembles. -/
inductive SecurityOpt (Roots Cert : Type)
  | dialTLSConfig (cfg : TlsConfig Roots Cert)
  | sasl (m : Mechanism)

/-- The protocols with TLS, and with SASL. -/
def UsesTLS (protocol : String) : Prop := protocol = "ssl" ∨ protocol = "sasl_ssl"

def UsesSASL (protocol : String) : Prop := protocol = "sasl_plaintext" ∨ protocol = "sasl_ssl"

instance (protocol : String) : Decidable (UsesTLS protocol) :=
  inferInstanceAs (Decidable (_ ∨ _))

instance (protocol : String) : Decidable (UsesSASL protocol) :=
  inferInstanceAs (Decidable (_ ∨ _))

section

variable {Roots Cert : Type} (env : SecurityEnv Roots Cert) (s : FranzSecurity)

/-- The protocol switch of `build`. -/
def FranzSecurity.checkProtocol : Except SecurityFault Unit :=
  if s.field .protocol = "" then .error .protocolMissing
  else if s.field .protocol = "plaintext" then
    reject (s.hasSSLKeys ∨ s.hasSASLKeys) .plaintextConflict
  else if s.field .protocol = "ssl" then reject s.hasSASLKeys (.saslRequires (s.field .protocol))
  else if s.field .protocol = "sasl_plaintext" then
    reject s.hasSSLKeys (.sslRequires (s.field .protocol))
  else if s.field .protocol = "sasl_ssl" then .ok ()
  else .error (.protocolUnknown (s.field .protocol))

/-- The TLS option, for a protocol with TLS. -/
def FranzSecurity.tlsOpts : Except SecurityFault (List (SecurityOpt Roots Cert)) :=
  if UsesTLS (s.field .protocol) then do
    let cfg ← s.tlsConfig env.toTlsEnv
    .ok [.dialTLSConfig cfg]
  else .ok []

/-- The SASL option, for a protocol with SASL. -/
def FranzSecurity.saslOpts : Except SecurityFault (List (SecurityOpt Roots Cert)) :=
  if UsesSASL (s.field .protocol) then do
    let m ← s.saslMechanism env
    .ok [.sasl m]
  else .ok []

/-- `franzSecurity.build`. -/
def FranzSecurity.build : Except SecurityFault (List (SecurityOpt Roots Cert)) :=
  if s.sawKey = false then .ok []
  else do
    s.checkProtocol
    let tlsOpts ← s.tlsOpts env
    let saslOpts ← s.saslOpts env
    .ok (tlsOpts ++ saslOpts)

end

/-! ## The posture -/

/-- The mechanisms that take a user name and password. -/
def Mechanism.IsUserPass : Mechanism → Prop
  | .plain .. | .scramSha256 .. | .scramSha512 .. => True
  | _ => False

def Mechanism.IsAWS : Mechanism → Prop
  | .awsMskIam .. => True
  | _ => False

def Mechanism.IsOIDC : Mechanism → Prop
  | .oauthOIDC .. => True
  | _ => False

def Mechanism.IsGCP : Mechanism → Prop
  | .oauthGCP .. => True
  | _ => False

/-- The options are what the fields ask for. -/
structure Posture {Roots Cert : Type} (env : SecurityEnv Roots Cert) (s : FranzSecurity)
    (opts : List (SecurityOpt Roots Cert)) : Prop where
  tls : (∃ cfg, .dialTLSConfig cfg ∈ opts) ↔ UsesTLS (s.field .protocol)
  sasl : (∃ m, .sasl m ∈ opts) ↔ UsesSASL (s.field .protocol)
  chain_off : ∀ cfg, .dialTLSConfig cfg ∈ opts →
    ((¬ ∃ roots, cfg.ChecksChain roots) ↔ s.field .verifyCerts = "false")
  host_off : ∀ cfg, .dialTLSConfig cfg ∈ opts →
    (¬ cfg.ChecksHost ↔ s.field .verifyCerts = "false" ∨ s.field .endpointIdent = "none")
  /-- Everything a handshake verifies, with the roots it verifies against. -/
  accepts : ∀ cfg, .dialTLSConfig cfg ∈ opts → ∀ (Peer : Type)
    (chainOk : Option Roots → Peer → List Peer → Bool) (hostOk : Peer → Bool) (leaf : Peer)
    (rest : List Peer), cfg.accepts chainOk hostOk (leaf :: rest) = true ↔
      (s.field .verifyCerts = "false" ∨
        chainOk (s.configuredRoots env.toTlsEnv) leaf rest = true) ∧
      (s.field .verifyCerts = "false" ∨ s.field .endpointIdent = "none" ∨ hostOk leaf = true)
  roots : ∀ cfg, .dialTLSConfig cfg ∈ opts →
    ((s.configuredRoots env.toTlsEnv).isSome ↔ s.GivesCA)
  certificate : ∀ cfg, .dialTLSConfig cfg ∈ opts →
    cfg.certificates = (s.configuredPair env.toTlsEnv).toList ∧
      (cfg.certificates ≠ [] ↔ s.GivesKeyPair)
  mechanism : ∀ m, .sasl m ∈ opts → Selected s m
  ssl : ∀ f ∈ sslFields, s.field f ≠ "" → ∃ cfg, .dialTLSConfig cfg ∈ opts
  userPass : ∀ f ∈ [SecurityField.username, .password], s.field f ≠ "" →
    ∃ m, .sasl m ∈ opts ∧ m.IsUserPass
  aws : ∀ f ∈ awsFields, s.field f ≠ "" → ∃ m, .sasl m ∈ opts ∧ m.IsAWS
  oidc : ∀ f ∈ oidcFields, s.field f ≠ "" → ∃ m, .sasl m ∈ opts ∧ m.IsOIDC
  oauthMethod : s.field .oauthMethod ≠ "" → ∃ m, .sasl m ∈ opts ∧ (m.IsOIDC ∨ m.IsGCP)
  gcp : ∀ f ∈ gcpFields, s.field f ≠ "" → ∃ m, .sasl m ∈ opts ∧ m.IsGCP

section

variable {Roots Cert : Type} {env : SecurityEnv Roots Cert} {s : FranzSecurity}
  {opts : List (SecurityOpt Roots Cert)}

/-- The protocol switch lets a key family through only under a protocol that uses it. -/
theorem checkProtocol_ok {u : Unit} (h : s.checkProtocol = .ok u) :
    (s.hasSSLKeys → UsesTLS (s.field .protocol)) ∧
      (s.hasSASLKeys → UsesSASL (s.field .protocol)) := by
  unfold FranzSecurity.checkProtocol at h
  split_ifs at h with hempty hplaintext hssl hsasl hboth
  · rw [reject_eq_ok, not_or] at h
    exact ⟨fun hkeys => absurd hkeys h.1, fun hkeys => absurd hkeys h.2⟩
  · rw [reject_eq_ok] at h
    exact ⟨fun _ => .inl hssl, fun hkeys => absurd hkeys h⟩
  · rw [reject_eq_ok] at h
    exact ⟨fun hkeys => absurd hkeys h, fun _ => .inl hsasl⟩
  · exact ⟨fun _ => .inr hboth, fun _ => .inr hboth⟩

/-- What a successful `build` has checked, and what its options are. -/
theorem build_ok (hsaw : s.sawKey = true) (h : s.build env = .ok opts) :
    s.checkProtocol = .ok () ∧
      (∀ cfg, .dialTLSConfig cfg ∈ opts ↔
        UsesTLS (s.field .protocol) ∧ s.tlsConfig env.toTlsEnv = .ok cfg) ∧
      (UsesTLS (s.field .protocol) → ∃ cfg, s.tlsConfig env.toTlsEnv = .ok cfg) ∧
      (∀ m, .sasl m ∈ opts ↔ UsesSASL (s.field .protocol) ∧ s.saslMechanism env = .ok m) ∧
      (UsesSASL (s.field .protocol) → ∃ m, s.saslMechanism env = .ok m) := by
  unfold FranzSecurity.build at h
  rw [if_neg (by simp [hsaw])] at h
  obtain ⟨_, hprotocol, h⟩ := bind_eq_ok.mp h
  obtain ⟨tlsOpts, htls, h⟩ := bind_eq_ok.mp h
  obtain ⟨saslOpts, hsasl, h⟩ := bind_eq_ok.mp h
  obtain rfl := Except.ok.inj h
  -- the first part of the list is TLS alone, the second SASL alone
  obtain ⟨htlsMem, htlsEx, htlsOnly⟩ : (∀ cfg, .dialTLSConfig cfg ∈ tlsOpts ↔
      UsesTLS (s.field .protocol) ∧ s.tlsConfig env.toTlsEnv = .ok cfg) ∧
      (UsesTLS (s.field .protocol) → ∃ cfg, s.tlsConfig env.toTlsEnv = .ok cfg) ∧
      ∀ m, SecurityOpt.sasl m ∉ tlsOpts := by
    unfold FranzSecurity.tlsOpts at htls
    split_ifs at htls with huses
    · obtain ⟨cfg, hcfg, htls⟩ := bind_eq_ok.mp htls
      obtain rfl := Except.ok.inj htls
      refine ⟨fun cfg' => ?_, fun _ => ⟨cfg, hcfg⟩, fun m hm => ?_⟩
      · simp [huses, hcfg, eq_comm]
      · simp at hm
    · obtain rfl := Except.ok.inj htls
      exact ⟨fun cfg => by simp [huses], fun hu => absurd hu huses, fun m hm => by cases hm⟩
  obtain ⟨hsaslMem, hsaslEx, hsaslOnly⟩ : (∀ m, .sasl m ∈ saslOpts ↔
      UsesSASL (s.field .protocol) ∧ s.saslMechanism env = .ok m) ∧
      (UsesSASL (s.field .protocol) → ∃ m, s.saslMechanism env = .ok m) ∧
      ∀ cfg, SecurityOpt.dialTLSConfig cfg ∉ saslOpts := by
    unfold FranzSecurity.saslOpts at hsasl
    split_ifs at hsasl with huses
    · obtain ⟨m, hm, hsasl⟩ := bind_eq_ok.mp hsasl
      obtain rfl := Except.ok.inj hsasl
      refine ⟨fun m' => ?_, fun _ => ⟨m, hm⟩, fun cfg hcfg => ?_⟩
      · simp [huses, hm, eq_comm]
      · simp at hcfg
    · obtain rfl := Except.ok.inj hsasl
      exact ⟨fun m => by simp [huses], fun hu => absurd hu huses, fun cfg hcfg => by cases hcfg⟩
  refine ⟨hprotocol, fun cfg => ?_, htlsEx, fun m => ?_, hsaslEx⟩
  · rw [List.mem_append, or_iff_left (hsaslOnly cfg)]
    exact htlsMem cfg
  · rw [List.mem_append, or_iff_right (htlsOnly m)]
    exact hsaslMem m

/-- A security key given without any is nothing. -/
theorem build_nothing (hsaw : s.sawKey = false) (h : s.build env = .ok opts) : opts = [] := by
  rw [FranzSecurity.build, if_pos hsaw] at h
  exact (Except.ok.inj h).symm

/-- The options that `build` returns are what the fields ask for. -/
theorem posture_of_build (hsaw : s.sawKey = true) (h : s.build env = .ok opts) :
    Posture env s opts := by
  obtain ⟨hprotocol, htls, htlsEx, hsasl, hsaslEx⟩ := build_ok hsaw h
  obtain ⟨hsslKeys, hsaslKeys⟩ := checkProtocol_ok hprotocol
  -- a key of the SASL families was given, so there is a mechanism, and it was checked
  have hmechanism : ∀ f ∈ saslFields, s.field f ≠ "" →
      ∃ m, .sasl m ∈ opts ∧ s.saslMechanism env = .ok m := by
    intro f hf hne
    have huses := hsaslKeys ⟨f, hf, hne⟩
    obtain ⟨m, hm⟩ := hsaslEx huses
    exact ⟨m, (hsasl m).mpr ⟨huses, hm⟩, hm⟩
  constructor
  case tls =>
    exact ⟨fun ⟨cfg, hcfg⟩ => ((htls cfg).mp hcfg).1, fun huses =>
      (htlsEx huses).imp fun cfg hcfg => (htls cfg).mpr ⟨huses, hcfg⟩⟩
  case sasl =>
    exact ⟨fun ⟨m, hm⟩ => ((hsasl m).mp hm).1, fun huses =>
      (hsaslEx huses).imp fun m hm => (hsasl m).mpr ⟨huses, hm⟩⟩
  case chain_off => exact fun cfg hcfg => not_checksChain_iff ((htls cfg).mp hcfg).2
  case host_off => exact fun cfg hcfg => not_checksHost_iff ((htls cfg).mp hcfg).2
  case accepts =>
    exact fun cfg hcfg Peer chainOk hostOk leaf rest =>
      tlsConfig_accepts ((htls cfg).mp hcfg).2 chainOk hostOk leaf rest
  case roots =>
    intro cfg hcfg
    obtain ⟨heq, hsome⟩ := rootCAs_ok (tlsConfig_ok ((htls cfg).mp hcfg).2).2.1
    rwa [heq] at hsome
  case certificate =>
    exact fun cfg hcfg => certificates_ok (tlsConfig_ok ((htls cfg).mp hcfg).2).2.2.1
  case mechanism => exact fun m hm => (saslMechanism_ok ((hsasl m).mp hm).2).1
  case ssl =>
    intro f hf hne
    have huses := hsslKeys ⟨f, hf, hne⟩
    exact (htlsEx huses).imp fun cfg hcfg => (htls cfg).mpr ⟨huses, hcfg⟩
  case userPass =>
    intro f hf hne
    have hmem : f ∈ saslFields := by
      simp only [List.mem_cons, List.not_mem_nil, or_false] at hf
      rcases hf with rfl | rfl <;> decide
    have hgiven : ¬ (s.field .username = "" ∧ s.field .password = "") := by
      simp only [List.mem_cons, List.not_mem_nil, or_false] at hf
      rcases hf with rfl | rfl
      · exact fun h => hne h.1
      · exact fun h => hne h.2
    obtain ⟨m, hm, hok⟩ := hmechanism f hmem hne
    refine ⟨m, hm, ?_⟩
    -- the mechanisms without a user refuse both fields
    cases (saslMechanism_ok hok).1 with
    | plain => trivial
    | scramSha256 => trivial
    | scramSha512 => trivial
    | awsMskIam _ _ hplain => exact absurd hplain hgiven
    | oauthOIDC _ _ hplain => exact absurd hplain hgiven
    | oauthGCP _ _ _ hplain => exact absurd hplain hgiven
  case aws =>
    intro f hf hne
    have hmem : f ∈ saslFields := by simp [saslFields, hf]
    obtain ⟨m, hm, hok⟩ := hmechanism f hmem hne
    obtain ⟨hselected, haws, -, -⟩ := saslMechanism_ok hok
    -- AWS keys are refused by every mechanism but that of AWS
    have hname := haws ⟨f, hf, hne⟩
    refine ⟨m, hm, ?_⟩
    cases hselected with
    | awsMskIam => trivial
    | plain h | scramSha256 h | scramSha512 h | oauthOIDC h | oauthGCP h =>
        exact absurd (h.symm.trans hname) (by decide)
  case oidc =>
    intro f hf hne
    have hmem : f ∈ saslFields := by simp [saslFields, oauthFields, hf]
    obtain ⟨m, hm, hok⟩ := hmechanism f hmem hne
    obtain ⟨hselected, -, hoauth, -⟩ := saslMechanism_ok hok
    -- the OIDC keys are those of one of the two OAUTHBEARER methods
    have hname := hoauth ⟨f, List.mem_append_left _ hf, hne⟩
    refine ⟨m, hm, ?_⟩
    cases hselected with
    | oauthOIDC => trivial
    | oauthGCP _ _ _ _ hoidc => exact absurd (hoidc f hf) hne
    | plain h | scramSha256 h | scramSha512 h | awsMskIam h =>
        exact absurd (h.symm.trans hname) (by decide)
  case oauthMethod =>
    intro hne
    obtain ⟨m, hm, hok⟩ := hmechanism .oauthMethod (by decide) hne
    obtain ⟨hselected, -, hoauth, -⟩ := saslMechanism_ok hok
    have hname := hoauth ⟨.oauthMethod, by decide, hne⟩
    refine ⟨m, hm, ?_⟩
    cases hselected with
    | oauthOIDC => exact .inl trivial
    | oauthGCP => exact .inr trivial
    | plain h | scramSha256 h | scramSha512 h | awsMskIam h =>
        exact absurd (h.symm.trans hname) (by decide)
  case gcp =>
    intro f hf hne
    have hmem : f ∈ saslFields := by simp [saslFields, hf]
    obtain ⟨m, hm, hok⟩ := hmechanism f hmem hne
    obtain ⟨hselected, -, -, hgcp⟩ := saslMechanism_ok hok
    obtain ⟨hname, hmethod⟩ := hgcp ⟨f, hf, hne⟩
    refine ⟨m, hm, ?_⟩
    cases hselected with
    | oauthGCP => trivial
    | oauthOIDC _ h =>
        rw [hmethod] at h
        exact absurd h (by decide)
    | plain h | scramSha256 h | scramSha512 h | awsMskIam h =>
        exact absurd (h.symm.trans hname) (by decide)

/-- Without any key there are no options, as the empty fields ask. -/
theorem posture_nothing (hempty : ∀ f, s.field f = "") : Posture env s [] where
  tls := by simp [UsesTLS, hempty]
  sasl := by simp [UsesSASL, hempty]
  chain_off := by simp
  host_off := by simp
  accepts := by simp
  roots := by simp
  certificate := by simp
  mechanism := by simp
  ssl f _ hne := absurd (hempty f) hne
  userPass f _ hne := absurd (hempty f) hne
  aws f _ hne := absurd (hempty f) hne
  oidc f _ hne := absurd (hempty f) hne
  oauthMethod hne := absurd (hempty _) hne
  gcp f _ hne := absurd (hempty f) hne

end

section

variable {Roots Cert : Type} {env : SecurityEnv Roots Cert} {pairs : List (String × String)}
  {s : FranzSecurity} {opts : List (SecurityOpt Roots Cert)}

/-- The options made of collected pairs are what the fields ask for, also when there are none. -/
theorem posture_of_collected (hcollect : FranzSecurity.zero.collectAll pairs = some s)
    (hbuild : s.build env = .ok opts) : Posture env s opts := by
  have hsaw := collectAll_sawKey hcollect
  cases pairs with
  | nil =>
      obtain rfl := build_nothing hsaw hbuild
      exact posture_nothing fun f => collected_field hcollect f
  | cons p pairs => exact posture_of_build hsaw hbuild

end

/-- The security posture is the one asked for: whatever pairs are collected, in whatever
order, and whatever reading files and resolving credentials brings, if `build` succeeds then
its options match the values given. -/
theorem build_posture {Roots Cert : Type} (env : SecurityEnv Roots Cert)
    (pairs : List (String × String)) (s : FranzSecurity) (opts : List (SecurityOpt Roots Cert))
    (hcollect : FranzSecurity.zero.collectAll pairs = some s) (hbuild : s.build env = .ok opts) :
    (∀ f, s.field f = given pairs f) ∧ Posture env s opts :=
  ⟨collected_field hcollect, posture_of_collected hcollect hbuild⟩

/-- The name a mechanism goes by. -/
def Mechanism.name : Mechanism → String
  | .plain .. => "PLAIN"
  | .scramSha256 .. => "SCRAM-SHA-256"
  | .scramSha512 .. => "SCRAM-SHA-512"
  | .awsMskIam .. => "AWS_MSK_IAM"
  | .oauthOIDC .. | .oauthGCP .. => "OAUTHBEARER"

/-- The mechanism a value names, unless it is blank. -/
def mechanismNamed (value : String) : Option String :=
  if Text.toUpper (Text.trimSpace value) = "" then none
  else some (Text.toUpper (Text.trimSpace value))

section

variable {Roots Cert : Type} {env : SecurityEnv Roots Cert} {s : FranzSecurity}
  {opts : List (SecurityOpt Roots Cert)}

theorem name_of_selected {m : Mechanism} (h : Selected s m) :
    mechanismNamed (s.field .mechanism) = some m.name := by
  have hname : Text.toUpper (Text.trimSpace (s.field .mechanism)) = m.name := by
    cases h with
    | plain hname | scramSha256 hname | scramSha512 hname | awsMskIam hname | oauthOIDC hname
    | oauthGCP hname => exact hname
  have hne : m.name ≠ "" := by
    cases m <;> simp [Mechanism.name]
  rw [mechanismNamed, hname, if_neg hne]

/-- The mechanism of the options is the one that was named. -/
theorem mechanismNamed_of_build (hsaw : s.sawKey = true) (h : s.build env = .ok opts) :
    (∀ m, .sasl m ∈ opts → mechanismNamed (s.field .mechanism) = some m.name) ∧
      ((∀ m, .sasl m ∉ opts) → mechanismNamed (s.field .mechanism) = none) := by
  refine ⟨fun m hm => name_of_selected ((posture_of_build hsaw h).mechanism m hm), fun hnone => ?_⟩
  obtain ⟨hprotocol, -, -, hsasl, hsaslEx⟩ := build_ok hsaw h
  have hempty : s.field .mechanism = "" := by
    by_contra hne
    have huses := (checkProtocol_ok hprotocol).2 ⟨.mechanism, by decide, hne⟩
    obtain ⟨m, hm⟩ := hsaslEx huses
    exact hnone m ((hsasl m).mpr ⟨huses, hm⟩)
  rw [hempty]
  decide

end

/-- An environment where every file can be read and every credential is there. -/
def openEnv : SecurityEnv Unit Unit where
  readFile := fun _ => .ok []
  certPool := fun _ => some ()
  loadX509KeyPair := fun _ _ => .ok ()
  x509KeyPair := fun _ _ => .ok ()
  awsConfig := fun _ _ => .ok ()
  awsRetrieve := fun _ _ _ _ => .ok ()
  oidcToken := fun _ _ _ _ => .ok ()
  gcpCredentialsFromJSON := .ok
  gcpDefaultCredentials := .ok []
  gcpPrincipalEnv := ""
  gcpClientEmail := fun _ => ""
  gcpToken := fun _ => .ok ()

/-- SCRAM over TLS with a CA of its own and no hostname check, in upper case and with blanks. -/
def scramPairs : List (String × String) :=
  [("sasl.mechanism", " scram-sha-256"), ("sasl.password", "p"), ("sasl.username", "u"),
    ("security.protocol", "SASL_SSL"), ("ssl.ca.pem", "ca"),
    ("ssl.endpoint.identification.algorithm", "None ")]

theorem build_posture_scram :
    ∃ s opts, FranzSecurity.zero.collectAll scramPairs = some s ∧ s.build openEnv = .ok opts ∧
      (∀ f, s.field f = given scramPairs f) ∧ Posture openEnv s opts := by
  have hcollect : FranzSecurity.zero.collectAll scramPairs =
      some ((FranzSecurity.zero.collectAll scramPairs).get rfl) := rfl
  have hbuild : ((FranzSecurity.zero.collectAll scramPairs).get rfl).build openEnv =
      .ok [.dialTLSConfig ⟨some (), [], true, some (some ())⟩, .sasl (.scramSha256 "u" "p")] := rfl
  exact ⟨_, _, hcollect, hbuild, build_posture openEnv scramPairs _ _ hcollect hbuild⟩

/-! ## The toggles -/

/-- The values of `enable.ssl.certificate.verification`. -/
def ValidVerification (v : String) : Prop := v = "" ∨ v = "true" ∨ v = "false"

/-- The values of `ssl.endpoint.identification.algorithm`. -/
def ValidEndpoint (e : String) : Prop := e = "" ∨ e = "https" ∨ e = "none"

instance (v : String) : Decidable (ValidVerification v) := inferInstanceAs (Decidable (_ ∨ _ ∨ _))

instance (e : String) : Decidable (ValidEndpoint e) := inferInstanceAs (Decidable (_ ∨ _ ∨ _))

/-- The pairs are accepted, with TLS. -/
def AcceptsTLS {Roots Cert : Type} (env : SecurityEnv Roots Cert) (pairs : List (String × String)) :
    Prop :=
  ∃ s opts, FranzSecurity.zero.collectAll pairs = some s ∧ s.build env = .ok opts ∧
    UsesTLS (given pairs .protocol)

theorem toggles_of_acceptsTLS {Roots Cert : Type} {env : SecurityEnv Roots Cert}
    {pairs : List (String × String)} (h : AcceptsTLS env pairs) :
    ValidVerification (given pairs .verifyCerts) ∧
      (given pairs .verifyCerts ≠ "false" → ValidEndpoint (given pairs .endpointIdent)) := by
  obtain ⟨s, opts, hcollect, hbuild, huses⟩ := h
  have hfield : ∀ f, s.field f = given pairs f := collected_field hcollect
  rw [← hfield] at huses
  rw [← hfield, ← hfield]
  obtain ⟨cfg, hcfg⟩ := (posture_of_collected hcollect hbuild).tls.mpr huses
  have hsaw : s.sawKey = true := by
    by_contra hno
    have hnil := build_nothing (Bool.eq_false_of_not_eq_true hno) hbuild
    rw [hnil] at hcfg
    cases hcfg
  have htls := (((build_ok hsaw hbuild).2.1 cfg).mp hcfg).2
  rcases (tlsConfig_ok htls).2.2.2 with ⟨hoff, -⟩ | ⟨hverify, hmode⟩
  · exact ⟨.inr (.inr hoff), fun hon => absurd hoff hon⟩
  · refine ⟨hverify.imp id .inl, fun _ => ?_⟩
    rcases hmode with ⟨hhttps, -⟩ | ⟨hnone, -⟩
    · exact hhttps.imp id .inl
    · exact .inr (.inr hnone)

/-- With verification off, nothing but the protocol matters, whatever the hostname toggle is. -/
theorem build_verification_off {Roots Cert : Type} (env : SecurityEnv Roots Cert)
    {s : FranzSecurity} (hsaw : s.sawKey = true) (hprotocol : s.field .protocol = "ssl")
    (hoff : s.field .verifyCerts = "false")
    (hothers : ∀ f, f ≠ .protocol → f ≠ .verifyCerts → f ≠ .endpointIdent → s.field f = "") :
    s.build env = .ok [.dialTLSConfig ⟨none, [], true, none⟩] := by
  have hsasl : ¬ s.hasSASLKeys := by
    rw [FranzSecurity.not_hasAny]
    intro f hf
    refine hothers f ?_ ?_ ?_ <;>
      (rintro rfl; exact absurd hf (by decide))
  have hcheck : s.checkProtocol = .ok () := by
    unfold FranzSecurity.checkProtocol
    rw [hprotocol, if_neg (by decide), if_neg (by decide), if_pos rfl, reject_eq_ok]
    exact hsasl
  have hcert : s.certificates env.toTlsEnv = .ok [] := by
    simp [FranzSecurity.certificates, hothers]
  have hroots : s.rootCAs env.toTlsEnv = .ok none := by
    simp [FranzSecurity.rootCAs, hothers, reject]
    rfl
  have htls : s.tlsConfig env.toTlsEnv = .ok ⟨none, [], true, none⟩ := by
    unfold FranzSecurity.tlsConfig
    rw [hroots, hcert, hoff, hothers .keyPassword (by decide) (by decide) (by decide)]
    rfl
  have htlsOpts : s.tlsOpts env = .ok [.dialTLSConfig ⟨none, [], true, none⟩] := by
    unfold FranzSecurity.tlsOpts
    rw [if_pos (.inl hprotocol), htls]
    rfl
  have hsaslOpts : s.saslOpts env = .ok [] := by
    unfold FranzSecurity.saslOpts
    rw [hprotocol, if_neg (by decide)]
  unfold FranzSecurity.build
  rw [if_neg (by simp [hsaw]), hcheck, htlsOpts, hsaslOpts]
  rfl

/-- Verification switched off, and a hostname toggle that is no value of it. -/
theorem toggles_unchecked :
    ¬ ∀ (Roots Cert : Type) (env : SecurityEnv Roots Cert) (pairs : List (String × String)),
      AcceptsTLS env pairs →
        ValidVerification (given pairs .verifyCerts) ∧
          ValidEndpoint (given pairs .endpointIdent) := by
  intro hall
  have haccepts : AcceptsTLS openEnv
      [("security.protocol", "ssl"), ("enable.ssl.certificate.verification", "false"),
        ("ssl.endpoint.identification.algorithm", "sha256")] :=
    ⟨_, [.dialTLSConfig ⟨none, [], true, none⟩], rfl, rfl, .inl rfl⟩
  have hinvalid := (hall Unit Unit openEnv _ haccepts).2
  exact absurd hinvalid (by decide)

/-- TLS with two raw toggle values. -/
def togglePairs (verification endpoint : String) : List (String × String) :=
  [("security.protocol", "ssl"), ("enable.ssl.certificate.verification", verification),
    ("ssl.endpoint.identification.algorithm", endpoint)]

theorem settings_togglePairs (verification endpoint : String) :
    (togglePairs verification endpoint).filterMap setting =
      [(.protocol, "ssl"), (.verifyCerts, lowerTrim verification),
        (.endpointIdent, lowerTrim endpoint)] := by
  have hprotocol : setting ("security.protocol", "ssl") = some (.protocol, "ssl") := by decide
  have hverify : collector "enable.ssl.certificate.verification" =
      some (.verifyCerts, lowerTrim) := rfl
  have hendpoint : collector "ssl.endpoint.identification.algorithm" =
      some (.endpointIdent, lowerTrim) := rfl
  simp only [togglePairs, List.filterMap_cons, hprotocol, List.filterMap_nil]
  simp only [setting, hverify, hendpoint, Option.map_some]

theorem given_togglePairs (verification endpoint : String) (f : SecurityField) :
    given (togglePairs verification endpoint) f =
      match f with
      | .protocol => "ssl"
      | .verifyCerts => lowerTrim verification
      | .endpointIdent => lowerTrim endpoint
      | _ => "" := by
  unfold given
  rw [settings_togglePairs]
  cases f <;> simp [Assoc.last]

/-- With verification off the pairs are accepted whatever the hostname toggle is. -/
theorem acceptsTLS_off {verification : String} (endpoint : String)
    (hoff : lowerTrim verification = "false") :
    AcceptsTLS openEnv (togglePairs verification endpoint) := by
  cases hcollect : FranzSecurity.zero.collectAll (togglePairs verification endpoint) with
  | none => cases hcollect
  | some s =>
      have hfield : ∀ f, s.field f = given (togglePairs verification endpoint) f :=
        collected_field hcollect
      have hprotocol : s.field .protocol = "ssl" :=
        (hfield .protocol).trans (given_togglePairs verification endpoint .protocol)
      have hverify : s.field .verifyCerts = "false" := by
        calc
          s.field .verifyCerts = given (togglePairs verification endpoint) .verifyCerts :=
            hfield .verifyCerts
          _ = lowerTrim verification := given_togglePairs verification endpoint .verifyCerts
          _ = "false" := hoff
      have hothers : ∀ f, f ≠ .protocol → f ≠ .verifyCerts → f ≠ .endpointIdent →
          s.field f = "" := by
        intro f hf hf' hf''
        rw [hfield f, given_togglePairs verification endpoint f]
        cases f <;> simp_all only [ne_eq, not_true_eq_false]
      exact ⟨s, _, hcollect, build_verification_off openEnv (collectAll_sawKey hcollect)
        hprotocol hverify hothers,
        .inl (given_togglePairs verification endpoint .protocol)⟩

/-- The toggles of accepted pairs are valid exactly when verification is not switched off or
the hostname toggle is valid, and for no other values of the toggles are all accepted
configurations valid. -/
theorem toggles_validated_iff {Roots Cert : Type} (env : SecurityEnv Roots Cert)
    (pairs : List (String × String)) (verification endpoint : String) :
    (AcceptsTLS env pairs →
      ((ValidVerification (given pairs .verifyCerts) ∧
          ValidEndpoint (given pairs .endpointIdent)) ↔
        (given pairs .verifyCerts ≠ "false" ∨ ValidEndpoint (given pairs .endpointIdent)))) ∧
    ((∀ (Roots Cert : Type) (env : SecurityEnv Roots Cert) (pairs : List (String × String)),
      given pairs .verifyCerts = lowerTrim verification →
      given pairs .endpointIdent = lowerTrim endpoint → AcceptsTLS env pairs →
        ValidVerification (lowerTrim verification) ∧ ValidEndpoint (lowerTrim endpoint)) ↔
      (lowerTrim verification ≠ "false" ∨ ValidEndpoint (lowerTrim endpoint))) := by
  have hiff : ∀ {Roots Cert : Type} {env : SecurityEnv Roots Cert}
      {pairs : List (String × String)}, AcceptsTLS env pairs →
        ((ValidVerification (given pairs .verifyCerts) ∧
            ValidEndpoint (given pairs .endpointIdent)) ↔
          (given pairs .verifyCerts ≠ "false" ∨ ValidEndpoint (given pairs .endpointIdent))) := by
    intro Roots Cert env pairs haccepts
    obtain ⟨hverification, hendpoint⟩ := toggles_of_acceptsTLS haccepts
    exact ⟨fun h => .inr h.2, fun h => ⟨hverification, h.elim hendpoint id⟩⟩
  refine ⟨hiff, fun hall => ?_, fun hcond => ?_⟩
  · by_cases hoff : lowerTrim verification = "false"
    · have haccepts := acceptsTLS_off endpoint hoff
      exact .inr (hall Unit Unit openEnv _ (given_togglePairs verification endpoint .verifyCerts)
        (given_togglePairs verification endpoint .endpointIdent) haccepts).2
    · exact .inl hoff
  · intro Roots Cert env pairs hverification hendpoint haccepts
    rw [← hverification, ← hendpoint] at hcond ⊢
    exact (hiff haccepts).mpr hcond

end LlingrKafka.Security

import LlingrKafka.Foundations.Checks
import LlingrKafka.Foundations.Utf8
import LlingrKafka.Security.Collect
import LlingrKafka.Security.Fault

/-!
# TLS

`franzSecurity.tlsConfig` (`bridge/franz_security.go`), and what a TLS client makes of the
configuration: `accepts` is the verification a handshake runs.  `tlsConfig_accepts` says
which of the chain and the hostname are checked, and against which roots, in terms of the
collected fields alone.
-/

namespace LlingrKafka.Security

open Checks

/-- Files, certificates and key pairs: reading and parsing succeed or fail, with an error
text. -/
structure TlsEnv (Roots Cert : Type) where
  readFile : String → Except String Utf8.Bytes
  certPool : Utf8.Bytes → Option Roots
  loadX509KeyPair : String → String → Except String Cert
  x509KeyPair : Utf8.Bytes → Utf8.Bytes → Except String Cert

/-- `tls.Config`.  The custom `VerifyConnection` checks the chain against the roots it was
built with; no roots are the system's. -/
structure TlsConfig (Roots Cert : Type) where
  rootCAs : Option Roots
  certificates : List Cert
  insecureSkipVerify : Bool
  verifyConnection : Option (Option Roots)

/-- The certificate verification of a handshake: the standard one checks the chain and the
hostname unless it is skipped, and a custom one is run in any case.  `chainOk` verifies a
leaf and its intermediates against roots, `hostOk` compares the leaf with the server's
name. -/
def TlsConfig.accepts {Roots Cert Peer : Type} (cfg : TlsConfig Roots Cert)
    (chainOk : Option Roots → Peer → List Peer → Bool) (hostOk : Peer → Bool) :
    List Peer → Bool
  | [] => cfg.insecureSkipVerify && cfg.verifyConnection.isNone
  | leaf :: rest =>
      (cfg.insecureSkipVerify || (chainOk cfg.rootCAs leaf rest && hostOk leaf)) &&
        cfg.verifyConnection.all fun roots => chainOk roots leaf rest

section

variable {Roots Cert : Type} (env : TlsEnv Roots Cert) (s : FranzSecurity)

/-- The PEM text of the CA. -/
def FranzSecurity.caBytes : Except SecurityFault Utf8.Bytes :=
  if s.field .caLocation ≠ "" then (env.readFile (s.field .caLocation)).mapError .caLocation
  else .ok (Utf8.encode (s.field .caPEM))

/-- The roots of `tlsConfig`. -/
def FranzSecurity.rootCAs : Except SecurityFault (Option Roots) := do
  reject (s.field .caLocation ≠ "" ∧ s.field .caPEM ≠ "") .caExclusive
  if s.field .caLocation ≠ "" ∨ s.field .caPEM ≠ "" then do
    let pemBytes ← s.caBytes env
    match env.certPool pemBytes with
    | none => .error .caUnparseable
    | some pool => .ok (some pool)
  else .ok none

/-- The client certificate of `tlsConfig`. -/
def FranzSecurity.certificates : Except SecurityFault (List Cert) :=
  let locationPair := s.field .certLocation ≠ "" ∨ s.field .keyLocation ≠ ""
  let pemPair := s.field .certPEM ≠ "" ∨ s.field .keyPEM ≠ ""
  if locationPair ∧ pemPair then .error .certificateExclusive
  else if locationPair then do
    reject (s.field .certLocation = "" ∨ s.field .keyLocation = "") .certificateLocationHalf
    let certificate ← (env.loadX509KeyPair (s.field .certLocation) (s.field .keyLocation)).mapError
      .certificateLoading
    .ok [certificate]
  else if pemPair then do
    reject (s.field .certPEM = "" ∨ s.field .keyPEM = "") .certificatePemHalf
    let certificate ← (env.x509KeyPair (Utf8.encode (s.field .certPEM))
      (Utf8.encode (s.field .keyPEM))).mapError .certificateParsing
    .ok [certificate]
  else .ok []

/-- `franzSecurity.tlsConfig`. -/
def FranzSecurity.tlsConfig : Except SecurityFault (TlsConfig Roots Cert) := do
  reject (s.field .keyPassword ≠ "") .keyPassword
  let roots ← s.rootCAs env
  let certificates ← s.certificates env
  -- verification switched off returns before the hostname toggle is looked at
  if s.field .verifyCerts = "false" then .ok ⟨roots, certificates, true, none⟩
  else if s.field .verifyCerts = "" ∨ s.field .verifyCerts = "true" then
    if s.field .endpointIdent = "" ∨ s.field .endpointIdent = "https" then
      .ok ⟨roots, certificates, false, none⟩
    else if s.field .endpointIdent = "none" then .ok ⟨roots, certificates, true, some roots⟩
    else .error (.endpoint (s.field .endpointIdent))
  else .error (.verification (s.field .verifyCerts))

end

variable {Roots Cert : Type} {env : TlsEnv Roots Cert} {s : FranzSecurity}

/-- The configured CA: of the file, or of the PEM text; none are the system's roots. -/
def FranzSecurity.configuredRoots (env : TlsEnv Roots Cert) (s : FranzSecurity) : Option Roots :=
  if s.field .caLocation ≠ "" then (env.readFile (s.field .caLocation)).toOption.bind env.certPool
  else if s.field .caPEM ≠ "" then env.certPool (Utf8.encode (s.field .caPEM))
  else none

/-- A CA was given. -/
def FranzSecurity.GivesCA (s : FranzSecurity) : Prop :=
  s.field .caLocation ≠ "" ∨ s.field .caPEM ≠ ""

/-- The roots are the configured CA, which is there if one was given. -/
theorem rootCAs_ok {roots : Option Roots} (h : s.rootCAs env = .ok roots) :
    roots = s.configuredRoots env ∧ (roots.isSome ↔ s.GivesCA) := by
  unfold FranzSecurity.rootCAs at h
  obtain ⟨_, -, h⟩ := bind_eq_ok.mp h
  unfold FranzSecurity.configuredRoots FranzSecurity.GivesCA
  by_cases hgiven : s.field .caLocation ≠ "" ∨ s.field .caPEM ≠ ""
  · rw [if_pos hgiven] at h
    obtain ⟨pemBytes, hbytes, hpool⟩ := bind_eq_ok.mp h
    obtain ⟨pool, hcert, rfl⟩ : ∃ pool, env.certPool pemBytes = some pool ∧ roots = some pool := by
      cases hcert : env.certPool pemBytes with
      | none =>
          rw [hcert] at hpool
          cases hpool
      | some pool =>
          rw [hcert] at hpool
          exact ⟨pool, rfl, (Except.ok.inj hpool).symm⟩
    refine ⟨?_, by simp [hgiven]⟩
    by_cases hlocation : s.field .caLocation ≠ ""
    · unfold FranzSecurity.caBytes at hbytes
      rw [if_pos hlocation] at hbytes ⊢
      rw [mapError_eq_ok.mp hbytes]
      exact hcert.symm
    · have hpem : s.field .caPEM ≠ "" := hgiven.resolve_left hlocation
      unfold FranzSecurity.caBytes at hbytes
      rw [if_neg hlocation] at hbytes ⊢
      obtain rfl := Except.ok.inj hbytes
      rw [if_pos hpem, hcert]
  · rw [if_neg hgiven] at h
    obtain rfl := Except.ok.inj h
    rw [not_or] at hgiven
    rw [if_neg hgiven.1, if_neg hgiven.2]
    simp [hgiven.1, hgiven.2]

/-- A certificate and key were given: both as files, or both as PEM texts. -/
def FranzSecurity.GivesKeyPair (s : FranzSecurity) : Prop :=
  (s.field .certLocation ≠ "" ∧ s.field .keyLocation ≠ "") ∨
    (s.field .certPEM ≠ "" ∧ s.field .keyPEM ≠ "")

/-- The pair that was given, loaded. -/
def FranzSecurity.configuredPair (env : TlsEnv Roots Cert) (s : FranzSecurity) : Option Cert :=
  if s.field .certLocation ≠ "" then
    (env.loadX509KeyPair (s.field .certLocation) (s.field .keyLocation)).toOption
  else if s.field .certPEM ≠ "" then
    (env.x509KeyPair (Utf8.encode (s.field .certPEM)) (Utf8.encode (s.field .keyPEM))).toOption
  else none

/-- The client certificate is the pair that was given; half a pair is an error. -/
theorem certificates_ok {certificates : List Cert} (h : s.certificates env = .ok certificates) :
    certificates = (s.configuredPair env).toList ∧ (certificates ≠ [] ↔ s.GivesKeyPair) := by
  unfold FranzSecurity.certificates at h
  simp only at h
  unfold FranzSecurity.configuredPair FranzSecurity.GivesKeyPair
  split_ifs at h with hboth hlocation hpem
  · obtain ⟨_, hhalf, h⟩ := bind_eq_ok.mp h
    obtain ⟨certificate, hload, h⟩ := bind_eq_ok.mp h
    obtain rfl := Except.ok.inj h
    rw [reject_eq_ok, not_or] at hhalf
    rw [if_pos hhalf.1, mapError_eq_ok.mp hload]
    exact ⟨rfl, by simp [hhalf.1, hhalf.2]⟩
  · obtain ⟨_, hhalf, h⟩ := bind_eq_ok.mp h
    obtain ⟨certificate, hload, h⟩ := bind_eq_ok.mp h
    obtain rfl := Except.ok.inj h
    rw [reject_eq_ok, not_or] at hhalf
    rw [not_or, not_not, not_not] at hlocation
    rw [if_neg (by simp [hlocation.1]), if_pos hhalf.1, mapError_eq_ok.mp hload]
    exact ⟨rfl, by simp [hhalf.1, hhalf.2]⟩
  · obtain rfl := Except.ok.inj h
    rw [not_or, not_not, not_not] at hlocation hpem
    rw [if_neg (by simp [hlocation.1]), if_neg (by simp [hpem.1])]
    exact ⟨rfl, by simp [hlocation.1, hpem.1]⟩

/-- What a successful `tlsConfig` found in the toggles, and what it returned. -/
theorem tlsConfig_ok {cfg : TlsConfig Roots Cert} (h : s.tlsConfig env = .ok cfg) :
    s.field .keyPassword = "" ∧ s.rootCAs env = .ok cfg.rootCAs ∧
      s.certificates env = .ok cfg.certificates ∧
      ((s.field .verifyCerts = "false" ∧ cfg.insecureSkipVerify = true ∧
          cfg.verifyConnection = none) ∨
        ((s.field .verifyCerts = "" ∨ s.field .verifyCerts = "true") ∧
          (((s.field .endpointIdent = "" ∨ s.field .endpointIdent = "https") ∧
              cfg.insecureSkipVerify = false ∧ cfg.verifyConnection = none) ∨
            (s.field .endpointIdent = "none" ∧ cfg.insecureSkipVerify = true ∧
              cfg.verifyConnection = some cfg.rootCAs)))) := by
  unfold FranzSecurity.tlsConfig at h
  obtain ⟨_, hpassword, h⟩ := bind_eq_ok.mp h
  obtain ⟨roots, hroots, h⟩ := bind_eq_ok.mp h
  obtain ⟨certificates, hcertificates, h⟩ := bind_eq_ok.mp h
  rw [reject_eq_ok, not_not] at hpassword
  split_ifs at h with hoff hverify hhttps hnone
  · obtain rfl := Except.ok.inj h
    exact ⟨hpassword, hroots, hcertificates, .inl ⟨hoff, rfl, rfl⟩⟩
  · obtain rfl := Except.ok.inj h
    exact ⟨hpassword, hroots, hcertificates, .inr ⟨hverify, .inl ⟨hhttps, rfl, rfl⟩⟩⟩
  · obtain rfl := Except.ok.inj h
    exact ⟨hpassword, hroots, hcertificates, .inr ⟨hverify, .inr ⟨hnone, rfl, rfl⟩⟩⟩

/-- What a handshake under the configuration verifies. -/
theorem tlsConfig_accepts {cfg : TlsConfig Roots Cert} (h : s.tlsConfig env = .ok cfg)
    {Peer : Type} (chainOk : Option Roots → Peer → List Peer → Bool) (hostOk : Peer → Bool)
    (leaf : Peer) (rest : List Peer) :
    cfg.accepts chainOk hostOk (leaf :: rest) = true ↔
      (s.field .verifyCerts = "false" ∨ chainOk (s.configuredRoots env) leaf rest = true) ∧
        (s.field .verifyCerts = "false" ∨ s.field .endpointIdent = "none" ∨
          hostOk leaf = true) := by
  obtain ⟨-, hroots, -, hcases⟩ := tlsConfig_ok h
  rw [← (rootCAs_ok hroots).1]
  have hon : s.field .verifyCerts = "" ∨ s.field .verifyCerts = "true" →
      s.field .verifyCerts ≠ "false" := by
    rintro (hv | hv)
    · rw [hv]
      decide
    · rw [hv]
      decide
  rcases hcases with ⟨hoff, hskip, hcheck⟩ | ⟨hverify, hmode⟩
  · simp [TlsConfig.accepts, hskip, hcheck, hoff]
  · have hne := hon hverify
    rcases hmode with ⟨hhttps, hskip, hcheck⟩ | ⟨hnone, hskip, hcheck⟩
    · have hident : s.field .endpointIdent ≠ "none" := by
        rcases hhttps with he | he
        · rw [he]
          decide
        · rw [he]
          decide
      simp [TlsConfig.accepts, hskip, hcheck, hne, hident]
    · simp [TlsConfig.accepts, hskip, hcheck, hne, hnone]

/-- A handshake succeeds only if the chain verifies against the roots. -/
def TlsConfig.ChecksChain (cfg : TlsConfig Roots Cert) (roots : Option Roots) : Prop :=
  ∀ (Peer : Type) (chainOk : Option Roots → Peer → List Peer → Bool) (hostOk : Peer → Bool)
    (leaf : Peer) (rest : List Peer),
    cfg.accepts chainOk hostOk (leaf :: rest) = true → chainOk roots leaf rest = true

/-- A handshake succeeds only if the leaf has the server's name. -/
def TlsConfig.ChecksHost (cfg : TlsConfig Roots Cert) : Prop :=
  ∀ (Peer : Type) (chainOk : Option Roots → Peer → List Peer → Bool) (hostOk : Peer → Bool)
    (leaf : Peer) (rest : List Peer),
    cfg.accepts chainOk hostOk (leaf :: rest) = true → hostOk leaf = true

/-- The chain is checked against the configured roots, unless verification is off. -/
theorem checksChain_of_tlsConfig {cfg : TlsConfig Roots Cert} (h : s.tlsConfig env = .ok cfg)
    (hon : s.field .verifyCerts ≠ "false") : cfg.ChecksChain (s.configuredRoots env) := by
  intro Peer chainOk hostOk leaf rest haccepts
  exact (((tlsConfig_accepts h chainOk hostOk leaf rest).mp haccepts).1).resolve_left hon

theorem not_checksChain_iff {cfg : TlsConfig Roots Cert} (h : s.tlsConfig env = .ok cfg) :
    (¬ ∃ roots, cfg.ChecksChain roots) ↔ s.field .verifyCerts = "false" := by
  constructor
  · intro hno
    by_contra hon
    exact hno ⟨_, checksChain_of_tlsConfig h hon⟩
  · rintro hoff ⟨roots, hchecks⟩
    have haccepts := (tlsConfig_accepts h (fun _ (_ : Unit) _ => false) (fun _ => false) () []).mpr
      ⟨.inl hoff, .inl hoff⟩
    exact absurd (hchecks Unit _ _ () [] haccepts) (by simp)

theorem not_checksHost_iff {cfg : TlsConfig Roots Cert} (h : s.tlsConfig env = .ok cfg) :
    ¬ cfg.ChecksHost ↔ s.field .verifyCerts = "false" ∨ s.field .endpointIdent = "none" := by
  constructor
  · intro hno
    by_contra hon
    rw [not_or] at hon
    refine hno fun Peer chainOk hostOk leaf rest haccepts => ?_
    have hhost := ((tlsConfig_accepts h chainOk hostOk leaf rest).mp haccepts).2
    exact (hhost.resolve_left hon.1).resolve_left hon.2
  · intro hoff hchecks
    have hhost : s.field .verifyCerts = "false" ∨ s.field .endpointIdent = "none" ∨ false = true :=
      hoff.imp id .inl
    have haccepts := (tlsConfig_accepts h (fun _ (_ : Unit) _ => true) (fun _ => false) () []).mpr
      ⟨.inr rfl, hhost⟩
    exact absurd (hchecks Unit _ _ () [] haccepts) (by simp)

end LlingrKafka.Security

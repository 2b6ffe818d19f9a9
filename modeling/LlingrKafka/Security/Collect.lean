import LlingrKafka.Foundations.Assoc
import LlingrKafka.Foundations.Text
import Mathlib.Logic.Function.Basic

/-!
# Collecting the security keys

`franzSecurity` and its collectors (`bridge/franz_security.go`).  The fields are a function
of their names, so that the collectors are one table: the field a key sets, and what is
done to the value first.  `collected_field` says what a field holds after any run of
`collect`: the normalised value of the last pair whose key sets it.
-/

namespace LlingrKafka.Security

/-- The fields of `franzSecurity`. -/
inductive SecurityField
  | protocol
  | caLocation
  | caPEM
  | certLocation
  | keyLocation
  | certPEM
  | keyPEM
  | keyPassword
  | verifyCerts
  | endpointIdent
  | mechanism
  | username
  | password
  | awsRegion
  | awsProfile
  | awsRoleARN
  | awsRoleSessionName
  | oauthTokenEndpoint
  | oauthClientID
  | oauthClientSecret
  | oauthScope
  | oauthExtensions
  | oauthMethod
  | gcpPrincipal
  | gcpCredentialsFile
  deriving DecidableEq, Repr

/-- `franzSecurity`. -/
structure FranzSecurity where
  field : SecurityField → String
  sawKey : Bool

/-- `&franzSecurity{}`. -/
def FranzSecurity.zero : FranzSecurity := ⟨fun _ => "", false⟩

/-- `strings.ToLower(strings.TrimSpace(v))`. -/
def lowerTrim (v : String) : String := Text.toLower (Text.trimSpace v)

/-- `franzSecurityCollectors`: the field each key sets, and how its value is normalised. -/
def franzSecurityCollectors : List (String × SecurityField × (String → String)) :=
  [("security.protocol", .protocol, lowerTrim),
    ("ssl.ca.location", .caLocation, id),
    ("ssl.ca.pem", .caPEM, id),
    ("ssl.certificate.location", .certLocation, id),
    ("ssl.key.location", .keyLocation, id),
    ("ssl.certificate.pem", .certPEM, id),
    ("ssl.key.pem", .keyPEM, id),
    ("ssl.key.password", .keyPassword, id),
    ("enable.ssl.certificate.verification", .verifyCerts, lowerTrim),
    ("ssl.endpoint.identification.algorithm", .endpointIdent, lowerTrim),
    ("sasl.mechanism", .mechanism, id),
    ("sasl.mechanisms", .mechanism, id),
    ("sasl.username", .username, id),
    ("sasl.password", .password, id),
    ("aws.region", .awsRegion, Text.trimSpace),
    ("aws.profile", .awsProfile, Text.trimSpace),
    ("aws.role.arn", .awsRoleARN, Text.trimSpace),
    ("aws.role.session.name", .awsRoleSessionName, Text.trimSpace),
    ("sasl.oauthbearer.token.endpoint.url", .oauthTokenEndpoint, Text.trimSpace),
    ("sasl.oauthbearer.client.id", .oauthClientID, id),
    ("sasl.oauthbearer.client.secret", .oauthClientSecret, id),
    ("sasl.oauthbearer.scope", .oauthScope, Text.trimSpace),
    ("sasl.oauthbearer.extensions", .oauthExtensions, id),
    ("sasl.oauthbearer.method", .oauthMethod, lowerTrim),
    ("gcp.principal", .gcpPrincipal, Text.trimSpace),
    ("gcp.credentials.file", .gcpCredentialsFile, Text.trimSpace)]

/-- The collector of a key. -/
def collector (key : String) : Option (SecurityField × (String → String)) :=
  franzSecurityCollectors.lookup key

/-- `franzSecurity.collect`; none for a key that is no security key. -/
def FranzSecurity.collect (s : FranzSecurity) (key value : String) : Option FranzSecurity :=
  (collector key).map fun c => ⟨Function.update s.field c.1 (c.2 value), true⟩

/-- Collecting pairs one after the other. -/
def FranzSecurity.collectAll (s : FranzSecurity) (pairs : List (String × String)) :
    Option FranzSecurity :=
  pairs.foldlM (fun s p => s.collect p.1 p.2) s

/-- A pair as a setting of a field. -/
def setting (p : String × String) : Option (SecurityField × String) :=
  (collector p.1).map fun c => (c.1, c.2 p.2)

/-- The value the pairs give a field: the last one, normalised, or nothing. -/
def given (pairs : List (String × String)) (f : SecurityField) : String :=
  (Assoc.last (pairs.filterMap setting) f).getD ""

theorem collectAll_field {s s' : FranzSecurity} {pairs : List (String × String)}
    (h : s.collectAll pairs = some s') (f : SecurityField) :
    s'.field f = (Assoc.last (pairs.filterMap setting) f).getD (s.field f) := by
  induction pairs generalizing s with
  | nil =>
      obtain rfl := Option.some_inj.mp h
      rfl
  | cons p pairs ih =>
      rw [FranzSecurity.collectAll, List.foldlM_cons] at h
      obtain ⟨mid, hmid, hrest⟩ := Option.bind_eq_some_iff.mp h
      obtain ⟨c, hc, rfl⟩ := Option.map_eq_some_iff.mp hmid
      have hsetting : setting p = some (c.1, c.2 p.2) := by rw [setting, hc]; rfl
      rw [ih hrest, List.filterMap_cons, hsetting, Assoc.last]
      show (Assoc.last _ f).getD (Function.update s.field c.1 (c.2 p.2) f) = _
      by_cases hf : c.1 = f
      · rw [if_pos hf, ← hf, Function.update_self]
        cases Assoc.last (pairs.filterMap setting) c.1 with
        | none => rfl
        | some v => rfl
      · rw [if_neg hf, Function.update_of_ne (Ne.symm hf), Option.or_none]

/-- What a field holds after collecting from nothing. -/
theorem collected_field {s : FranzSecurity} {pairs : List (String × String)}
    (h : FranzSecurity.zero.collectAll pairs = some s) (f : SecurityField) :
    s.field f = given pairs f :=
  collectAll_field h f

theorem collectAll_sawKey {s s' : FranzSecurity} {pairs : List (String × String)}
    (h : s.collectAll pairs = some s') : s'.sawKey = (s.sawKey || !pairs.isEmpty) := by
  induction pairs generalizing s with
  | nil =>
      obtain rfl := Option.some_inj.mp h
      simp
  | cons p pairs ih =>
      rw [FranzSecurity.collectAll, List.foldlM_cons] at h
      obtain ⟨mid, hmid, hrest⟩ := Option.bind_eq_some_iff.mp h
      obtain ⟨c, -, rfl⟩ := Option.map_eq_some_iff.mp hmid
      rw [ih hrest]
      simp

end LlingrKafka.Security

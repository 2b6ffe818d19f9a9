import LlingrKafka.Foundations.GoMap
import LlingrKafka.Security.Collect
import Mathlib.Data.String.Basic

/-!
# The key of a field

Every field is set by one key, and the mechanism by an alias as well.  So what the keys of a
map give a field (`given_sorted`) is the normalised value of its key, unless the alias is
there, which comes later in the order of the keys and has the last word
(`given_mechanism`).
-/

namespace LlingrKafka.Security

/-- The key that sets a field. -/
def SecurityField.key : SecurityField → String
  | protocol => "security.protocol"
  | caLocation => "ssl.ca.location"
  | caPEM => "ssl.ca.pem"
  | certLocation => "ssl.certificate.location"
  | keyLocation => "ssl.key.location"
  | certPEM => "ssl.certificate.pem"
  | keyPEM => "ssl.key.pem"
  | keyPassword => "ssl.key.password"
  | verifyCerts => "enable.ssl.certificate.verification"
  | endpointIdent => "ssl.endpoint.identification.algorithm"
  | mechanism => "sasl.mechanism"
  | username => "sasl.username"
  | password => "sasl.password"
  | awsRegion => "aws.region"
  | awsProfile => "aws.profile"
  | awsRoleARN => "aws.role.arn"
  | awsRoleSessionName => "aws.role.session.name"
  | oauthTokenEndpoint => "sasl.oauthbearer.token.endpoint.url"
  | oauthClientID => "sasl.oauthbearer.client.id"
  | oauthClientSecret => "sasl.oauthbearer.client.secret"
  | oauthScope => "sasl.oauthbearer.scope"
  | oauthExtensions => "sasl.oauthbearer.extensions"
  | oauthMethod => "sasl.oauthbearer.method"
  | gcpPrincipal => "gcp.principal"
  | gcpCredentialsFile => "gcp.credentials.file"

/-- The alias of `sasl.mechanism`. -/
def mechanismAlias : String := "sasl.mechanisms"

/-- What is done to a field's value: a choice of words is trimmed and lowered, what names an
account or a place is trimmed, and a path, a text or a secret stays as it is. -/
def SecurityField.normal : SecurityField → String → String
  | protocol | verifyCerts | endpointIdent | oauthMethod =>
      fun v => Text.toLower (Text.trimSpace v)
  | awsRegion | awsProfile | awsRoleARN | awsRoleSessionName | oauthTokenEndpoint | oauthScope
  | gcpPrincipal | gcpCredentialsFile => Text.trimSpace
  | caLocation | caPEM | certLocation | keyLocation | certPEM | keyPEM | keyPassword
  | mechanism | username | password | oauthClientID | oauthClientSecret | oauthExtensions => id

/-- The table of the collectors has a row for the key of every field, with its normalisation. -/
theorem collector_key (f : SecurityField) : collector f.key = some (f, f.normal) := by
  cases f <;> rfl

theorem collector_mechanismAlias : collector mechanismAlias = some (.mechanism, id) := rfl

/-- A key that sets a field is the field's, or the alias. -/
theorem eq_key_of_collector {key : String} {c : SecurityField × (String → String)}
    (h : collector key = some c) :
    key = c.1.key ∨ (key = mechanismAlias ∧ c.1 = .mechanism) := by
  have hrows : ∀ row ∈ franzSecurityCollectors,
      row.1 = row.2.1.key ∨ (row.1 = mechanismAlias ∧ row.2.1 = .mechanism) := by decide
  obtain ⟨before, after, heq, -⟩ := List.lookup_eq_some_iff.mp h
  exact hrows (key, c) (heq ▸ List.mem_append_right _ List.mem_cons_self)

theorem isSome_collector_key (f : SecurityField) : (collector f.key).isSome := by
  rw [collector_key]
  rfl

/-- Without the alias, a field holds the normalised value of its key. -/
theorem last_setting {pairs : List (String × String)} {f : SecurityField}
    (halias : f = .mechanism → mechanismAlias ∉ pairs.map Prod.fst) :
    Assoc.last (pairs.filterMap setting) f = (Assoc.last pairs f.key).map f.normal := by
  induction pairs with
  | nil => rfl
  | cons p pairs ih =>
      have hrest := ih fun hf hmem => halias hf (List.mem_cons_of_mem _ hmem)
      rw [List.filterMap_cons, Assoc.last]
      cases hc : collector p.1 with
      | none =>
          have hne : p.1 ≠ f.key := by
            intro heq
            rw [heq, collector_key] at hc
            cases hc
          simp only [setting, hc, Option.map_none, if_neg hne, Option.or_none]
          exact hrest
      | some c =>
          simp only [setting, hc, Option.map_some, Assoc.last]
          by_cases hf : c.1 = f
          · have hkey : p.1 = f.key := by
              rcases eq_key_of_collector hc with heq | ⟨heq, hmechanism⟩
              · rw [heq, hf]
              · exact absurd (heq ▸ List.mem_cons_self) (halias (hf ▸ hmechanism))
            have hnormal : c.2 = f.normal := by
              rw [hkey, collector_key] at hc
              rw [← Option.some_inj.mp hc]
            rw [if_pos hf, if_pos hkey, hrest, hnormal]
            cases Assoc.last pairs f.key <;> rfl
          · have hne : p.1 ≠ f.key := by
              intro heq
              rw [heq, collector_key] at hc
              exact hf (congrArg Prod.fst (Option.some_inj.mp hc)).symm
            rw [if_neg hf, if_neg hne, Option.or_none, Option.or_none]
            exact hrest

section

variable {m : GoMap String String}

/-- The pairs the security collectors take. -/
def securityPairs (entries : List (String × String)) : List (String × String) :=
  entries.filter fun p => (collector p.1).isSome

/-- What the keys of a map give a field, if the alias is not among them. -/
theorem given_sorted {f : SecurityField}
    (halias : f = .mechanism → m.get? mechanismAlias = none) :
    given (securityPairs m.sorted) f = ((m.get? f.key).map f.normal).getD "" := by
  have hlast : Assoc.last (securityPairs m.sorted) f.key = m.get? f.key := by
    rw [← GoMap.last_sorted]
    exact Assoc.last_filter (fun key => (collector key).isSome) (isSome_collector_key f)
  rw [given, last_setting, hlast]
  intro hf hmem
  obtain ⟨p, hp, hkey⟩ := List.mem_map.mp hmem
  have hget := GoMap.mem_sorted.mp (List.mem_of_mem_filter hp)
  rw [hkey, halias hf] at hget
  cases hget

/-- The mechanism: of the two spellings the one that comes later in the order of the keys. -/
theorem given_mechanism :
    given (securityPairs m.sorted) .mechanism =
      ((m.get? mechanismAlias).or (m.get? "sasl.mechanism")).getD "" := by
  have hsets : ∀ p : String × String, p.1 ≠ "sasl.mechanism" → p.1 ≠ mechanismAlias →
      ((setting p).bind fun q => if q.1 = .mechanism then some q.2 else none) = none := by
    intro p hne hne'
    cases hc : collector p.1 with
    | none => simp [setting, hc]
    | some c =>
        have hother : c.1 ≠ .mechanism := by
          rintro hmechanism
          rcases eq_key_of_collector hc with heq | ⟨heq, -⟩
          · exact hne (by rw [heq, hmechanism]; rfl)
          · exact hne' heq
        simp [setting, hc, hother]
  have hvalues : given (securityPairs m.sorted) .mechanism =
      ((m.sorted.filterMap fun p => (setting p).bind fun q =>
        if q.1 = .mechanism then some q.2 else none).getLast?).getD "" := by
    rw [given, Assoc.last_eq_getLast?, List.filterMap_filterMap, securityPairs,
      List.filterMap_filter]
    congr 3
    funext p
    cases hc : collector p.1 with
    | none => simp [setting, hc]
    | some c => simp [setting, hc]
  rw [hvalues, GoMap.getLast?_filterMap_sorted m (by decide) hsets]
  have hspelling : ∀ (key v : String), collector key = some (.mechanism, id) →
      ((setting (key, v)).bind fun q => if q.1 = .mechanism then some q.2 else none) = some v := by
    intro key v hc
    simp [setting, hc]
  congr 1
  simp only [hspelling _ _ collector_mechanismAlias, hspelling "sasl.mechanism" _ rfl]
  cases m.get? mechanismAlias <;> cases m.get? "sasl.mechanism" <;> rfl

end

end LlingrKafka.Security

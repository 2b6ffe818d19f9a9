import LlingrKafka.Builder.Calls
import LlingrKafka.Security.Fields

/-!
# Typed setters against string pairs

`validate` accepts a builder only when no pair it was given uses a key of the typed security
setters (`validate_eq_ok_iff`).  `typedSecurity_arrives` is what that is for: past the
deduplication, every key the typed setters write has one value, theirs, and the fields the
bridge collects from the keys are made of these values.
-/

namespace LlingrKafka.Builder

open Security

variable {durationMsCeil : ℕ → ℕ}

namespace Options

/-- The broker settings of an engine that is given these options. -/
def brokerConfig (o : Options) (brokers consumerGroup : String) : Config.BrokerConfig :=
  ⟨brokers, consumerGroup, o.allEntries⟩

/-- The option map of the bridge: what the deduplicated pairs are decoded to. -/
def Arrives (o : Options) (m : GoMap String String) : Prop :=
  ∀ key, m.get? key = Assoc.last (o.allEntries.foldl Assoc.put []) key

/-- The deduplicated pairs as the map they arrive as. -/
def arrivalMap (o : Options) : GoMap String String where
  entries := o.allEntries.foldl Assoc.put []
  nodup := Assoc.nodup_keys_foldl_put o.allEntries (by simp)

theorem arrives_arrivalMap (o : Options) : o.Arrives o.arrivalMap := fun _ => rfl

theorem Arrives.get? {o : Options} {m : GoMap String String} (h : o.Arrives m) (key : String) :
    m.get? key = Assoc.last o.allEntries key := by
  rw [h key, Assoc.last_foldl_put o.allEntries key (by simp), List.nil_append]

/-- No pair has a key of the typed security setters. -/
theorem validate_eq_ok_iff {o : Options} :
    o.validate = .ok () ↔ ∀ p ∈ o.entries, p.1 ∉ o.typedSecurityKeys := by
  have hconflicts : o.conflicts.isEmpty ↔ ∀ p ∈ o.entries, p.1 ∉ o.typedSecurityKeys := by
    have hempty : o.conflicts = [] ↔
        (o.entries.map Prod.fst).filter (fun key => o.typedSecurityKeys.contains key) = [] := by
      rw [conflicts, List.destutter_eq_nil, ← List.length_eq_zero_iff, List.length_insertionSort,
        List.length_eq_zero_iff]
    rw [List.isEmpty_iff, hempty]
    simp
  unfold validate
  split_ifs with hnone hempty
  · simp only [List.isEmpty_iff] at hnone
    simp [hnone]
  · exact iff_of_true rfl (hconflicts.mp hempty)
  · exact iff_of_false (by simp) fun h => hempty (hconflicts.mpr h)

end Options

/-- The pairs a call gives the TLS setters. -/
def Call.tlsPairs : Call → List (String × String)
  | .tlsCaLocation path => [("ssl.ca.location", path)]
  | .tlsCaPem pem => [("ssl.ca.pem", pem)]
  | .tlsClientCertificate certificatePath keyPath =>
      [("ssl.certificate.location", certificatePath), ("ssl.key.location", keyPath)]
  | .tlsClientCertificatePem certificatePem keyPem =>
      [("ssl.certificate.pem", certificatePem), ("ssl.key.pem", keyPem)]
  | .disableCertificateVerification => [("enable.ssl.certificate.verification", "false")]
  | .disableHostnameVerification => [("ssl.endpoint.identification.algorithm", "none")]
  | _ => []

theorem sslEntries_apply (o : Options) (call : Call) :
    (o.apply durationMsCeil call).sslEntries = o.sslEntries ++ call.tlsPairs := by
  cases call
  case kafkaOptions pairs => simp [Options.apply, Call.tlsPairs, Options.entries_foldl_push]
  case awsRegion | awsProfile | awsAssumeRole | oauthbearerScope | oauthbearerExtensions |
      gcpPrincipal | gcpCredentialsFile =>
    simp only [Options.apply, Call.tlsPairs, List.append_nil]
    split <;> rfl
  all_goals simp [Options.apply, Call.tlsPairs, Options.push, Options.pushSsl]

/-- The TLS pairs are those of the calls in order. -/
theorem sslEntries_build (calls : List Call) :
    (Options.build durationMsCeil calls).sslEntries = calls.flatMap Call.tlsPairs := by
  have hrun : ∀ (calls : List Call) (o : Options),
      (calls.foldl (Options.apply durationMsCeil) o).sslEntries =
        o.sslEntries ++ calls.flatMap Call.tlsPairs := by
    intro calls
    induction calls with
    | nil => exact fun o => (List.append_nil _).symm
    | cons call calls ih =>
        intro o
        rw [List.foldl_cons, ih, sslEntries_apply, List.flatMap_cons, List.append_assoc]
  exact hrun calls .new

section

variable {o : Options}

/-- A key only the typed setters write has their last value. -/
theorem last_allEntries_of_typed {key : String} (h : ∀ p ∈ o.entries, p.1 ≠ key) :
    Assoc.last o.allEntries key = Assoc.last o.securityEntries key := by
  have hnone : Assoc.last o.entries key = none := by
    rw [Assoc.last_eq_none_iff]
    intro hmem
    obtain ⟨p, hp, hkey⟩ := List.mem_map.mp hmem
    exact h p hp hkey
  rw [Options.allEntries, Assoc.last_append, hnone, Option.or_none]

/-- The protocol is written the way it is compared. -/
theorem normal_protocol (o : Options) : SecurityField.protocol.normal o.protocol = o.protocol := by
  unfold Options.protocol
  split <;> decide

/-- A key of a list without repeated keys has one pair. -/
theorem filter_key_eq {l : List (String × String)} (hnodup : (l.map Prod.fst).Nodup)
    {key value : String} (h : Assoc.last l key = some value) :
    (l.filter fun p => p.1 == key) = [(key, value)] := by
  obtain ⟨before, after, rfl, hafter⟩ := Assoc.last_eq_some_iff.mp h
  rw [List.map_append, List.map_cons, List.nodup_middle, List.nodup_cons] at hnodup
  have hbefore : key ∉ before.map Prod.fst := fun hmem =>
    hnodup.1 (List.mem_append_left _ hmem)
  have hnone : ∀ part : List (String × String), key ∉ part.map Prod.fst →
      (part.filter fun p => p.1 == key) = [] := by
    intro part hpart
    rw [List.filter_eq_nil_iff]
    intro p hp heq
    exact hpart (List.mem_map.mpr ⟨p, hp, eq_of_beq heq⟩)
  rw [List.filter_append, List.filter_cons, hnone before hbefore, hnone after hafter]
  simp

/-- The alias of the mechanism is listed with any mechanism, and written by none. -/
theorem mechanismAlias_mem_typedSecurityKeys (h : o.sasl.isSome) :
    mechanismAlias ∈ o.typedSecurityKeys := by
  obtain ⟨sasl, hsasl⟩ := Option.isSome_iff_exists.mp h
  have hactive : o.securityActive = true := by simp [Options.securityActive, hsasl]
  have hlisted : mechanismAlias ∈ Options.saslKeys sasl := by
    cases sasl <;> simp [Options.saslKeys, mechanismAlias]
  rw [Options.typedSecurityKeys, if_pos hactive, hsasl]
  exact List.mem_cons_of_mem _ (List.mem_append_right _ hlisted)

end

section

variable {o : Options} (htyped : TypedSecurity o) (hvalid : o.validate = .ok ())

include hvalid in
/-- No pair has a key that the typed security setters write. -/
theorem not_mem_securityEntries_of_validate {p : String × String} (hp : p ∈ o.entries) :
    p.1 ∉ o.securityEntries.map Prod.fst :=
  fun hmem => Options.validate_eq_ok_iff.mp hvalid p hp (mem_typedSecurityKeys hmem)

include hvalid in
/-- Nor the alias of the mechanism, where one is chosen. -/
theorem ne_mechanismAlias_of_validate (hsasl : o.sasl.isSome) {p : String × String}
    (hp : p ∈ o.entries) : p.1 ≠ mechanismAlias :=
  fun heq => Options.validate_eq_ok_iff.mp hvalid p hp
    (heq ▸ mechanismAlias_mem_typedSecurityKeys hsasl)

theorem mem_keys_of_last {pairs : List (String × String)} {key value : String}
    (h : Assoc.last pairs key = some value) : key ∈ pairs.map Prod.fst := by
  by_contra hno
  rw [Assoc.last_eq_none_iff.mpr hno] at h
  cases h

include hvalid in
/-- So what the typed setters gave a key last is what the key has at the end. -/
theorem last_allEntries_of_validate {key value : String}
    (hvalue : Assoc.last o.securityEntries key = some value) :
    Assoc.last o.allEntries key = some value := by
  rw [last_allEntries_of_typed fun p hp heq =>
    not_mem_securityEntries_of_validate hvalid hp (heq ▸ mem_keys_of_last hvalue)]
  exact hvalue

include htyped hvalid in
/-- And what the bridge collects for the field of the key, with its normalisation. -/
theorem given_of_last {m : GoMap String String} (hm : o.Arrives m) {f : SecurityField}
    {value : String} (hvalue : Assoc.last o.securityEntries f.key = some value) :
    given (securityPairs m.sorted) f = f.normal value := by
  have hget : m.get? f.key = some value := by
    rw [hm.get?, last_allEntries_of_validate hvalid hvalue]
  rw [given_sorted, hget]
  · rfl
  · -- the alias would have the last word on the mechanism, but it did not arrive
    rintro rfl
    obtain ⟨sasl, hsasl, -⟩ :=
      (mem_securityEntries htyped (mem_keys_of_last hvalue)).resolve_left (by decide)
    have halias : ∀ p ∈ o.entries, p.1 ≠ mechanismAlias := fun p hp =>
      ne_mechanismAlias_of_validate hvalid (Option.isSome_iff_exists.mpr ⟨sasl, hsasl⟩) hp
    rw [hm.get?, last_allEntries_of_typed halias, Assoc.last_eq_none_iff]
    intro halias
    rcases mem_securityEntries htyped halias with hother | ⟨sasl', -, hwritten⟩
    · exact absurd hother (by decide)
    · exact (mem_saslKeys hwritten).2 rfl

include htyped hvalid in
/-- The protocol is the one the setters imply. -/
theorem given_protocol {m : GoMap String String} (hm : o.Arrives m) (hactive : o.securityActive) :
    given (securityPairs m.sorted) .protocol = o.protocol := by
  rw [given_of_last (f := .protocol) htyped hvalid hm (last_protocol htyped hactive)]
  exact normal_protocol o

include htyped hvalid in
theorem given_of_sasl {m : GoMap String String} (hm : o.Arrives m) {sasl : Sasl}
    (hsasl : sasl ∈ o.sasl) {f : SecurityField} {value : String}
    (hmem : (f.key, value) ∈ sasl.entries) :
    given (securityPairs m.sorted) f = f.normal value :=
  given_of_last htyped hvalid hm (last_saslEntries hsasl hmem)

end

/-- Past a successful `validate`, the typed security setters are alone with their keys: no
pair has one, nor the alias of the mechanism, the deduplicated pairs have each key once with
the value the typed setters gave it last, and the fields collected from the keys are made of
these values. -/
theorem typedSecurity_arrives (durationMsCeil : ℕ → ℕ) (calls : List Call)
    (h : (Options.build durationMsCeil calls).validate = .ok ()) :
    let o := Options.build durationMsCeil calls
    (∀ p ∈ o.entries, p.1 ∉ o.securityEntries.map Prod.fst ∧
      (o.sasl.isSome → p.1 ≠ mechanismAlias)) ∧
    o.sslEntries = calls.flatMap Call.tlsPairs ∧
    (∀ key value, Assoc.last o.securityEntries key = some value →
      ((o.allEntries.foldl Assoc.put []).filter fun p => p.1 == key) = [(key, value)]) ∧
    ∀ m, o.Arrives m →
      (o.securityActive → given (securityPairs m.sorted) .protocol = o.protocol) ∧
      (∀ (f : SecurityField) (value : String), Assoc.last o.securityEntries f.key = some value →
        given (securityPairs m.sorted) f = f.normal value) ∧
      ∀ sasl ∈ o.sasl, ∀ (f : SecurityField) (value : String), (f.key, value) ∈ sasl.entries →
        given (securityPairs m.sorted) f = f.normal value := by
  intro o
  have htyped : TypedSecurity o := typedSecurity_build calls
  refine ⟨?_, sslEntries_build calls, ?_, ?_⟩
  -- `validate` compares each pair with the keys of the typed setters
  · intro p hp
    exact ⟨not_mem_securityEntries_of_validate h hp,
      fun hsasl => ne_mechanismAlias_of_validate h hsasl hp⟩
  · -- the deduplication keeps the last value, in one pair
    intro key value hvalue
    apply filter_key_eq (Assoc.nodup_keys_foldl_put o.allEntries (by simp))
    rw [Assoc.last_foldl_put o.allEntries key (by simp), List.nil_append]
    exact last_allEntries_of_validate h hvalue
  -- the bridge collects the sorted map, where nothing else writes these fields
  · intro m hm
    exact ⟨given_protocol htyped h hm, fun f value => given_of_last htyped h hm,
      fun sasl hsasl f value => given_of_sasl htyped h hm hsasl⟩

/-- The mechanism chosen twice, TLS, and string pairs beside them. -/
def rechosenCalls : List Call :=
  [.saslAwsMskIam, .kafkaOption "client.id" "c", .saslScramSha512 "u" "p",
    .kafkaOption "isolation.level" "read_committed", .tlsCaPem "ca", .tlsCaPem "ca2"]

theorem typedSecurity_arrives_rechosen :
    let o := Options.build id rechosenCalls
    given (securityPairs o.arrivalMap.sorted) .protocol = "sasl_ssl" ∧
      given (securityPairs o.arrivalMap.sorted) .mechanism = "SCRAM-SHA-512" ∧
      given (securityPairs o.arrivalMap.sorted) .caPEM = "ca2" := by
  intro o
  have h := (typedSecurity_arrives id rechosenCalls rfl).2.2.2 _ o.arrives_arrivalMap
  exact ⟨h.1 rfl, h.2.1 .mechanism "SCRAM-SHA-512" rfl, h.2.1 .caPEM "ca2" rfl⟩

end LlingrKafka.Builder

import LlingrKafka.Builder.Conflicts

/-!
# String keys beside the typed setters

The keys that `validate` compares with are listed per mechanism, whether or not the optional
ones were set (`mem_typedSecurityKeys_iff`).  So a string pair for a refinement that no typed
setter gave is rejected although nothing else would emit its key: `validate` rejects real
conflicts only exactly when no string pair has the key of an unset refinement of the
mechanism (`rejects_real_conflicts_iff`).
-/

namespace LlingrKafka.Builder

variable {durationMsCeil : ℕ → ℕ}

/-- The key of a refinement that was not set. -/
def unsetKey (key : String) (value : Option String) : List String :=
  if value.isSome then [] else [key]

/-- The keys of the mechanism's refinements that were not set. -/
def Sasl.unsetKeys : Sasl → List String
  | userPass .. => []
  | awsMskIam region profile roleArn roleSessionName =>
      unsetKey "aws.region" region ++ unsetKey "aws.profile" profile ++
        unsetKey "aws.role.arn" roleArn ++ unsetKey "aws.role.session.name" roleSessionName
  | oauthbearerOidc _ _ _ scope extensions =>
      unsetKey "sasl.oauthbearer.scope" scope ++
        if extensions.isEmpty then ["sasl.oauthbearer.extensions"] else []
  | gcpIam principal credentialsFile =>
      unsetKey "gcp.principal" principal ++ unsetKey "gcp.credentials.file" credentialsFile

/-- The keys of the string pairs a call gives. -/
def Call.stringKeys : Call → List String
  | .kafkaOption key _ => [key]
  | .kafkaOptions pairs => pairs.map Prod.fst
  | _ => []

/-- A key the typed security setters write, or the alias of the mechanism they set. -/
def RealConflict (o : Options) (key : String) : Prop :=
  key ∈ o.securityEntries.map Prod.fst ∨ (key = "sasl.mechanisms" ∧ o.sasl.isSome)

/-- `validate` fails only over a real conflict, and never over a string key that the typed
setters do not write. -/
def RejectsRealConflicts (o : Options) (stringKeys : List String) : Prop :=
  (∀ e, o.validate = .error e → ∃ key ∈ stringKeys, RealConflict o key) ∧
    ∀ key ∈ stringKeys, ¬ RealConflict o key → key ∉ o.conflicts

/-! ## The listed keys -/

theorem mem_optPair {key key' : String} {value : Option String} :
    key ∈ (optPair key' value).map Prod.fst ↔ key = key' ∧ value.isSome := by
  cases value <;> simp [optPair]

theorem mem_unsetKey {key key' : String} {value : Option String} :
    key ∈ unsetKey key' value ↔ key = key' ∧ ¬ value.isSome := by
  cases value <;> simp [unsetKey]

/-- Each listed key is written, is the alias, or belongs to an unset refinement. -/
theorem mem_saslKeys_iff {sasl : Sasl} {key : String} :
    key ∈ Options.saslKeys sasl ↔
      key ∈ sasl.entries.map Prod.fst ∨ key = "sasl.mechanisms" ∨ key ∈ sasl.unsetKeys := by
  cases sasl with
  | userPass mechanism username password =>
      simp only [Options.saslKeys, Sasl.entries, Sasl.unsetKeys, List.map_cons, List.map_nil,
        List.mem_cons, List.not_mem_nil, or_false]
      tauto
  | awsMskIam region profile roleArn roleSessionName =>
      simp only [Options.saslKeys, Sasl.entries, Sasl.unsetKeys, List.map_append, List.map_cons,
        List.map_nil, List.mem_append, List.mem_cons, List.not_mem_nil, or_false, mem_optPair,
        mem_unsetKey]
      tauto
  | oauthbearerOidc tokenEndpoint clientId clientSecret scope extensions =>
      cases extensions <;>
        simp only [Options.saslKeys, Sasl.entries, Sasl.unsetKeys, List.isEmpty_nil,
          List.isEmpty_cons, if_true, Bool.false_eq_true, if_false, List.map_append, List.map_cons,
          List.map_nil, List.mem_append, List.mem_cons, List.not_mem_nil, or_false, mem_optPair,
          mem_unsetKey] <;>
        tauto
  | gcpIam principal credentialsFile =>
      simp only [Options.saslKeys, Sasl.entries, Sasl.unsetKeys, List.map_append, List.map_cons,
        List.map_nil, List.mem_append, List.mem_cons, List.not_mem_nil, or_false, mem_optPair,
        mem_unsetKey]
      tauto

/-- A refinement that was not set is written by no typed setter. -/
theorem not_written_of_unset {sasl : Sasl} {key : String} (h : key ∈ sasl.unsetKeys) :
    key ∉ sasl.entries.map Prod.fst ∧
      key ∉ "sasl.mechanisms" :: "security.protocol" :: tlsKeys := by
  have hkeys : key ∈ ["aws.region", "aws.profile", "aws.role.arn", "aws.role.session.name",
      "sasl.oauthbearer.scope", "sasl.oauthbearer.extensions", "gcp.principal",
      "gcp.credentials.file"] := by
    cases sasl <;>
      simp only [Sasl.unsetKeys, List.mem_append, mem_unsetKey, List.not_mem_nil,
        List.mem_ite_nil_right, List.mem_cons] at h ⊢ <;>
      tauto
  have hother : ∀ key ∈ ["aws.region", "aws.profile", "aws.role.arn", "aws.role.session.name",
      "sasl.oauthbearer.scope", "sasl.oauthbearer.extensions", "gcp.principal",
      "gcp.credentials.file"], key ∉ "sasl.mechanisms" :: "security.protocol" :: tlsKeys := by
    decide
  refine ⟨?_, hother key hkeys⟩
  cases sasl with
  | userPass mechanism username password => cases h
  | awsMskIam region profile roleArn roleSessionName =>
      simp only [Sasl.unsetKeys, List.mem_append, mem_unsetKey] at h
      simp only [Sasl.entries, List.map_append, List.mem_append, mem_optPair, List.map_cons,
        List.map_nil, List.mem_singleton]
      rcases h with ((⟨rfl, h⟩ | ⟨rfl, h⟩) | ⟨rfl, h⟩) | ⟨rfl, h⟩ <;> simpa using h
  | oauthbearerOidc tokenEndpoint clientId clientSecret scope extensions =>
      simp only [Sasl.unsetKeys, List.mem_append, mem_unsetKey, List.mem_ite_nil_right,
        List.mem_singleton] at h
      simp only [Sasl.entries, List.map_append, List.mem_append, mem_optPair, List.map_cons,
        List.map_nil, List.mem_cons, List.not_mem_nil]
      rcases h with ⟨rfl, h⟩ | ⟨h, rfl⟩ <;> simp [h]
  | gcpIam principal credentialsFile =>
      simp only [Sasl.unsetKeys, List.mem_append, mem_unsetKey] at h
      simp only [Sasl.entries, List.map_append, List.mem_append, mem_optPair, List.map_cons,
        List.map_nil, List.mem_cons, List.not_mem_nil]
      rcases h with ⟨rfl, h⟩ | ⟨rfl, h⟩ <;> simpa using h

section

variable {o : Options} {key : String}

theorem not_realConflict_of_unset (htyped : TypedSecurity o) {sasl : Sasl} (hsasl : sasl ∈ o.sasl)
    (h : key ∈ sasl.unsetKeys) : ¬ RealConflict o key := by
  obtain ⟨hentry, hother⟩ := not_written_of_unset h
  rintro (hwritten | ⟨rfl, -⟩)
  · rcases mem_securityEntries htyped hwritten with htls | ⟨sasl', hsasl', hkey⟩
    · exact hother (List.mem_cons_of_mem _ htls)
    · obtain rfl := Option.mem_unique hsasl hsasl'
      exact hentry hkey
  · exact hother List.mem_cons_self

/-- The keys compared with are the written ones, the alias, and the unset refinements. -/
theorem mem_typedSecurityKeys_iff :
    key ∈ o.typedSecurityKeys ↔ RealConflict o key ∨ ∃ sasl ∈ o.sasl, key ∈ sasl.unsetKeys := by
  unfold RealConflict Options.typedSecurityKeys Options.securityEntries
  cases hsasl : o.sasl with
  | none =>
      by_cases hactive : o.securityActive = true <;> simp [hactive]
  | some sasl =>
      have hactive : o.securityActive = true := by simp [Options.securityActive, hsasl]
      have hmember := @mem_saslKeys_iff sasl key
      simp only [hactive, if_true, Option.elim_some, List.map_cons, List.map_append, List.mem_cons,
        List.mem_append, hmember, Option.isSome_some, and_true, Option.mem_def, Option.some.injEq,
        exists_eq_left']
      tauto

/-- The keys the message lists. -/
theorem mem_conflicts_iff :
    key ∈ o.conflicts ↔ key ∈ o.entries.map Prod.fst ∧ key ∈ o.typedSecurityKeys := by
  have hsorted : (((o.entries.map Prod.fst).filter fun key =>
      o.typedSecurityKeys.contains key).insertionSort (· ≤ ·)).Pairwise (· ≤ ·) :=
    List.pairwise_insertionSort _ _
  rw [Options.conflicts, hsorted.destutter_eq_dedup, List.mem_dedup, List.mem_insertionSort,
    List.mem_filter, List.contains_iff_mem]

/-- A setter's key is never one of the typed security setters. -/
theorem setter_not_typed (htyped : TypedSecurity o) (setter : ClientSetter) :
    setter.key ∉ o.typedSecurityKeys := by
  have hkeys : setter.key ∉ "security.protocol" :: tlsKeys := by
    cases setter <;> (simp only [ClientSetter.key]; decide)
  have hsasl : ∀ sasl, setter.key ∉ Options.saslKeys sasl := by
    intro sasl
    cases sasl <;> cases setter <;> (simp only [ClientSetter.key, Options.saslKeys]; decide)
  unfold Options.typedSecurityKeys
  split_ifs
  · rw [List.mem_cons, List.mem_append]
    rintro (hprotocol | hssl | hmechanism)
    · exact hkeys (List.mem_cons.mpr (.inl hprotocol))
    · exact hkeys (List.mem_cons_of_mem _ (htyped.mem_tlsKeys hssl))
    · cases ho : o.sasl with
      | none => simp [ho] at hmechanism
      | some sasl =>
          rw [ho] at hmechanism
          exact hsasl sasl hmechanism
  · exact List.not_mem_nil

end

/-- A pair's key is a setter's or was given as a string. -/
theorem key_of_entry {calls : List Call} {key : String}
    (h : key ∈ (Options.build durationMsCeil calls).entries.map Prod.fst) :
    (∃ setter : ClientSetter, key = setter.key) ∨ key ∈ calls.flatMap Call.stringKeys := by
  obtain ⟨p, hp, rfl⟩ := List.mem_map.mp h
  rw [Options.entries_build, List.mem_flatMap] at hp
  obtain ⟨call, hcall, hp⟩ := hp
  cases call
  case client setter =>
    rw [Call.pairs_client] at hp
    rw [List.mem_singleton.mp hp]
    exact .inl ⟨setter, rfl⟩
  case kafkaOption key value =>
    rw [List.mem_singleton.mp hp]
    exact .inr (List.mem_flatMap.mpr ⟨_, hcall, List.mem_singleton_self key⟩)
  case kafkaOptions pairs =>
    exact .inr (List.mem_flatMap.mpr ⟨_, hcall, List.mem_map_of_mem hp⟩)
  all_goals cases hp

theorem entry_of_stringKey {calls : List Call} {key : String}
    (h : key ∈ calls.flatMap Call.stringKeys) :
    key ∈ (Options.build durationMsCeil calls).entries.map Prod.fst := by
  obtain ⟨call, hcall, hkey⟩ := List.mem_flatMap.mp h
  rw [Options.entries_build, List.map_flatMap]
  refine List.mem_flatMap.mpr ⟨call, hcall, ?_⟩
  cases call
  case kafkaOption | kafkaOptions => exact hkey
  all_goals cases hkey

/-- The conflicts `validate` reports are the string keys it compares equal. -/
theorem mem_conflicts_build {calls : List Call} {key : String} :
    key ∈ (Options.build durationMsCeil calls).conflicts ↔
      key ∈ calls.flatMap Call.stringKeys ∧
        key ∈ (Options.build durationMsCeil calls).typedSecurityKeys := by
  rw [mem_conflicts_iff]
  refine and_congr_left fun htyped => ⟨fun h => ?_, entry_of_stringKey⟩
  rcases key_of_entry h with ⟨setter, rfl⟩ | hstring
  · exact absurd htyped (setter_not_typed (typedSecurity_build calls) setter)
  · exact hstring

/-- `validate` rejects real conflicts only exactly when no string pair has the key of an
optional refinement that the mechanism in force was left without. -/
theorem rejects_real_conflicts_iff (durationMsCeil : ℕ → ℕ) (calls : List Call) :
    RejectsRealConflicts (Options.build durationMsCeil calls) (calls.flatMap Call.stringKeys) ↔
      ∀ key ∈ calls.flatMap Call.stringKeys,
        ∀ sasl ∈ (Options.build durationMsCeil calls).sasl, key ∉ sasl.unsetKeys := by
  constructor
  · rintro ⟨-, hcompose⟩ key hkey sasl hsasl hunset
    have hreal := not_realConflict_of_unset (typedSecurity_build calls) hsasl hunset
    exact hcompose key hkey hreal (mem_conflicts_build.mpr
      ⟨hkey, mem_typedSecurityKeys_iff.mpr (.inr ⟨sasl, hsasl, hunset⟩)⟩)
  · intro hset
    -- then a key it reports is a real conflict
    have hreal : ∀ key ∈ (Options.build durationMsCeil calls).conflicts,
        key ∈ calls.flatMap Call.stringKeys ∧
          RealConflict (Options.build durationMsCeil calls) key := by
      intro key hkey
      obtain ⟨hstring, hlisted⟩ := mem_conflicts_build.mp hkey
      refine ⟨hstring, (mem_typedSecurityKeys_iff.mp hlisted).resolve_right ?_⟩
      rintro ⟨sasl, hsasl, hunset⟩
      exact hset key hstring sasl hsasl hunset
    refine ⟨fun e he => ?_, fun key _ hcompose hkey => hcompose (hreal key hkey).2⟩
    obtain ⟨key, hkey⟩ : ∃ key, key ∈ (Options.build durationMsCeil calls).conflicts := by
      unfold Options.validate at he
      split_ifs at he with hnone hempty
      rw [List.isEmpty_iff] at hempty
      exact List.exists_mem_of_ne_nil _ hempty
    exact ⟨key, hreal key hkey⟩

/-- A scope given as a string pair beside a typed mechanism that has none. -/
def stringScopeCalls : List Call :=
  [.saslOauthbearerOidc "https://idp/token" "id" "secret",
    .kafkaOption "sasl.oauthbearer.scope" "kafka"]

/-- The scope is rejected although the typed setters do not write it. -/
theorem unset_refinement_rejected :
    ¬ ∀ calls : List Call, RejectsRealConflicts (Options.build id calls)
      (calls.flatMap Call.stringKeys) := by
  intro h
  refine (h stringScopeCalls).2 "sasl.oauthbearer.scope" (by decide) ?_ (by decide)
  rintro (hwritten | ⟨halias, -⟩)
  · exact absurd hwritten (by decide)
  · exact absurd halias (by decide)

end LlingrKafka.Builder

import LlingrKafka.Builder.Options

/-!
# What calls leave on the builder

The pairs are those of the calls in order (`entries_build`).  What the typed security setters
leave is described by the invariant `TypedSecurity`: every setter preserves it
(`TypedSecurity.apply`), so it holds of every builder (`typedSecurity_build`).
-/

namespace LlingrKafka.Builder

variable {durationMsCeil : ℕ → ℕ}

/-- What a setter writes: durations in whole milliseconds, counts in decimal. -/
def ClientSetter.written (durationMsCeil : ℕ → ℕ) : ClientSetter → String × String
  | .autoOffsetReset reset => ("auto.offset.reset", reset)
  | .clientId id => ("client.id", id)
  | .groupInstanceId id => ("group.instance.id", id)
  | .sessionTimeout d => ("session.timeout.ms", toString (durationMsCeil d))
  | .heartbeatInterval d => ("heartbeat.interval.ms", toString (durationMsCeil d))
  | .rebalanceTimeout d => ("rebalance.timeout.ms", toString (durationMsCeil d))
  | .clientLogLevel level => ("llingr.client.log.level", level.wireName)
  | .partitionAssignmentStrategy strategies =>
      ("partition.assignment.strategy", ",".intercalate (strategies.map BalanceStrategy.wireName))
  | .fetchMinBytes n => ("fetch.min.bytes", toString n.toNat)
  | .fetchMaxBytes n => ("fetch.max.bytes", toString n.toNat)
  | .maxPartitionFetchBytes n => ("max.partition.fetch.bytes", toString n.toNat)
  | .fetchMaxWait d => ("fetch.max.wait.ms", toString (durationMsCeil d))
  | .rack id => ("client.rack", id)
  | .metadataMaxAge d => ("metadata.max.age.ms", toString (durationMsCeil d))
  | .dialTimeout d => ("socket.connection.setup.timeout.ms", toString (durationMsCeil d))
  | .connectionIdleTimeout d => ("connections.max.idle.ms", toString (durationMsCeil d))
  | .requestRetries n => ("llingr.request.retries", toString n.toNat)
  | .retryTimeout d => ("llingr.retry.timeout.ms", toString (durationMsCeil d))
  | .maxConcurrentFetches n => ("llingr.max.concurrent.fetches", toString n.toNat)
  | .allowAutoTopicCreation => ("allow.auto.create.topics", "true")
  | .disableFetchCrcValidation => ("check.crcs", "false")
  | .disableClientMetricsPush => ("enable.metrics.push", "false")
  | .pollErrorBailAfter d => ("llingr.poll.error.bail.after.ms", toString (durationMsCeil d))
  | .pollErrorLogInterval d => ("llingr.poll.error.log.interval.ms", toString (durationMsCeil d))
  | .pollErrorBackoff d => ("llingr.poll.error.backoff.ms", toString (durationMsCeil d))

/-- The pairs a call appends. -/
def Call.pairs (durationMsCeil : ℕ → ℕ) : Call → List (String × String)
  | .client setter => [setter.written durationMsCeil]
  | .kafkaOption key value => [(key, value)]
  | .kafkaOptions pairs => pairs
  | _ => []

theorem Call.pairs_client (setter : ClientSetter) :
    (Call.client setter).pairs durationMsCeil = [(setter.key, setter.value durationMsCeil)] := by
  cases setter <;> rfl

/-- No string pairs. -/
def Call.Typed : Call → Prop
  | .kafkaOption .. | .kafkaOptions _ => False
  | _ => True

/-- The mechanisms that exist only over TLS. -/
def Sasl.TlsOnly : Sasl → Prop
  | .awsMskIam .. | .gcpIam .. => True
  | _ => False

/-- A session name is given with a role. -/
def Sasl.SessionOfRole : Sasl → Prop
  | .awsMskIam _ _ roleArn roleSessionName => roleSessionName.isSome → roleArn.isSome
  | _ => True

/-- A pair the TLS setters write. -/
def IsTlsPair (p : String × String) : Prop :=
  p.1 ∈ ["ssl.ca.location", "ssl.ca.pem", "ssl.certificate.location", "ssl.key.location",
    "ssl.certificate.pem", "ssl.key.pem"] ∨
  p = ("enable.ssl.certificate.verification", "false") ∨
  p = ("ssl.endpoint.identification.algorithm", "none")

/-- What the typed security setters keep. -/
structure TypedSecurity (o : Options) : Prop where
  pairs : ∀ p ∈ o.sslEntries, IsTlsPair p
  tls_of_pairs : o.sslEntries ≠ [] → o.tls = true
  tls_of_sasl : ∀ sasl ∈ o.sasl, sasl.TlsOnly → o.tls = true
  session : ∀ sasl ∈ o.sasl, sasl.SessionOfRole

namespace Options

theorem entries_foldl_push (pairs : List (String × String)) (o : Options) :
    pairs.foldl (fun o p => o.push p.1 p.2) o = { o with entries := o.entries ++ pairs } := by
  induction pairs generalizing o with
  | nil => simp
  | cons p pairs ih =>
      rw [List.foldl_cons, ih]
      simp [push]

/-- A call appends its pairs. -/
theorem entries_apply (o : Options) (call : Call) :
    (o.apply durationMsCeil call).entries = o.entries ++ call.pairs durationMsCeil := by
  cases call
  case client setter => simp [apply, Call.pairs_client, push]
  case kafkaOptions pairs => simp [apply, Call.pairs, entries_foldl_push]
  case awsRegion | awsProfile | awsAssumeRole | oauthbearerScope | oauthbearerExtensions |
      gcpPrincipal | gcpCredentialsFile =>
    simp only [apply, Call.pairs, List.append_nil]
    split <;> rfl
  all_goals simp [apply, Call.pairs, push, pushSsl]

theorem entries_foldl_apply (calls : List Call) (o : Options) :
    (calls.foldl (apply durationMsCeil) o).entries =
      o.entries ++ calls.flatMap (Call.pairs durationMsCeil) := by
  induction calls generalizing o with
  | nil => simp
  | cons call calls ih =>
      rw [List.foldl_cons, ih, entries_apply, List.flatMap_cons, List.append_assoc]

theorem entries_build (calls : List Call) :
    (build durationMsCeil calls).entries = calls.flatMap (Call.pairs durationMsCeil) :=
  entries_foldl_apply calls .new

end Options

theorem typedSecurity_new : TypedSecurity .new where
  pairs := by simp [Options.new]
  tls_of_pairs := by simp [Options.new]
  tls_of_sasl := by simp [Options.new]
  session := by simp [Options.new]

namespace TypedSecurity

variable {o : Options}

/-- A builder with other pairs. -/
theorem of_eq {o' : Options} (h : TypedSecurity o) (htls : o'.tls = o.tls)
    (hssl : o'.sslEntries = o.sslEntries) (hsasl : o'.sasl = o.sasl) : TypedSecurity o' where
  pairs := by rw [hssl]; exact h.pairs
  tls_of_pairs := by rw [hssl, htls]; exact h.tls_of_pairs
  tls_of_sasl := by rw [hsasl, htls]; exact h.tls_of_sasl
  session := by rw [hsasl]; exact h.session

theorem pushSsl {key value : String} (h : TypedSecurity o) (hpair : IsTlsPair (key, value)) :
    TypedSecurity (o.pushSsl key value) where
  pairs p hp := by
    rcases List.mem_append.mp hp with hp | hp
    · exact h.pairs p hp
    · rw [List.mem_singleton.mp hp]
      exact hpair
  tls_of_pairs _ := rfl
  tls_of_sasl _ _ _ := rfl
  session := h.session

/-- The TLS flag can be set, and a mechanism that does not need it replaced. -/
theorem withTls {sasl : Option Sasl} (h : TypedSecurity o)
    (hsession : ∀ s ∈ sasl, s.SessionOfRole) :
    TypedSecurity { o with tls := true, sasl := sasl } where
  pairs := h.pairs
  tls_of_pairs _ := rfl
  tls_of_sasl _ _ _ := rfl
  session := hsession

theorem withSasl {sasl : Sasl} (h : TypedSecurity o) (htls : sasl.TlsOnly → o.tls = true)
    (hsession : sasl.SessionOfRole) : TypedSecurity { o with sasl := some sasl } where
  pairs := h.pairs
  tls_of_pairs := h.tls_of_pairs
  tls_of_sasl sasl' hsasl' := by
    obtain rfl := Option.some_inj.mp hsasl'
    exact htls
  session sasl' hsasl' := by
    obtain rfl := Option.some_inj.mp hsasl'
    exact hsession

/-- Every call keeps the invariant. -/
theorem apply (h : TypedSecurity o) (call : Call) :
    TypedSecurity (o.apply durationMsCeil call) := by
  have hlocation : ∀ {key value}, key ∈ ["ssl.ca.location", "ssl.ca.pem",
      "ssl.certificate.location", "ssl.key.location", "ssl.certificate.pem", "ssl.key.pem"] →
      IsTlsPair (key, value) := fun hkey => .inl hkey
  cases call
  case client | kafkaOption => exact h.of_eq rfl rfl rfl
  case kafkaOptions pairs =>
    rw [Options.apply, Options.entries_foldl_push]
    exact h.of_eq rfl rfl rfl
  case tls => exact h.withTls h.session
  case tlsCaLocation | tlsCaPem => exact h.pushSsl (hlocation (by decide))
  case tlsClientCertificate | tlsClientCertificatePem =>
    exact (h.pushSsl (hlocation (by decide))).pushSsl (hlocation (by decide))
  case disableCertificateVerification => exact h.pushSsl (.inr (.inl rfl))
  case disableHostnameVerification => exact h.pushSsl (.inr (.inr rfl))
  case saslPlain | saslScramSha256 | saslScramSha512 | saslOauthbearerOidc =>
    exact h.withSasl (fun hno => hno.elim) trivial
  case saslAwsMskIam =>
    refine h.withTls fun sasl hsasl => ?_
    obtain rfl := Option.some_inj.mp hsasl
    exact id
  case saslGcpIam =>
    refine h.withTls fun sasl hsasl => ?_
    obtain rfl := Option.some_inj.mp hsasl
    trivial
  -- refining a mechanism keeps its kind
  case awsRegion | awsProfile =>
    rw [Options.apply]
    split
    · rename_i hsasl
      have hsession := h.session _ hsasl
      exact h.withSasl (fun _ => h.tls_of_sasl _ hsasl trivial) hsession
    · exact h
  case awsAssumeRole =>
    rw [Options.apply]
    split
    · rename_i hsasl
      exact h.withSasl (fun _ => h.tls_of_sasl _ hsasl trivial) fun _ => rfl
    · exact h
  case gcpPrincipal | gcpCredentialsFile =>
    rw [Options.apply]
    split
    · rename_i hsasl
      exact h.withSasl (fun _ => h.tls_of_sasl _ hsasl trivial) trivial
    · exact h
  case oauthbearerScope | oauthbearerExtensions =>
    rw [Options.apply]
    split
    · exact h.withSasl (fun hno => hno.elim) trivial
    · exact h

end TypedSecurity

/-- The invariant holds of every builder. -/
theorem typedSecurity_build (calls : List Call) :
    TypedSecurity (Options.build durationMsCeil calls) := by
  have hrun : ∀ (calls : List Call) (o : Options), TypedSecurity o →
      TypedSecurity (calls.foldl (Options.apply durationMsCeil) o) := by
    intro calls
    induction calls with
    | nil => exact fun o h => h
    | cons call calls ih => exact fun o h => ih _ (h.apply call)
  exact hrun calls .new typedSecurity_new

/-! ## The security pairs -/

section

variable {o : Options}

theorem keys_optPair (key : String) (value : Option String) :
    ((optPair key value).map Prod.fst).Sublist [key] := by
  cases value with
  | none => exact List.nil_sublist _
  | some v => exact List.Sublist.refl _

/-- The keys a mechanism writes are among those listed for it, the alias apart, in order. -/
theorem keys_saslEntries (sasl : Sasl) :
    (sasl.entries.map Prod.fst).Sublist ((Options.saslKeys sasl).erase "sasl.mechanisms") := by
  cases sasl with
  | userPass mechanism username password => exact List.Sublist.refl _
  | awsMskIam region profile roleArn roleSessionName =>
      simp only [Sasl.entries, List.map_append]
      exact ((((List.Sublist.refl ["sasl.mechanism"]).append
        (keys_optPair "aws.region" region)).append
        (keys_optPair "aws.profile" profile)).append (keys_optPair "aws.role.arn" roleArn)).append
        (keys_optPair "aws.role.session.name" roleSessionName)
  | oauthbearerOidc tokenEndpoint clientId clientSecret scope extensions =>
      have hextensions : ((if extensions.isEmpty then []
          else [("sasl.oauthbearer.extensions", joinExtensions extensions)]).map Prod.fst).Sublist
          ["sasl.oauthbearer.extensions"] := by
        split_ifs
        · exact List.nil_sublist _
        · exact List.Sublist.refl _
      simp only [Sasl.entries, List.map_append]
      exact ((List.Sublist.refl ["sasl.mechanism", "sasl.oauthbearer.token.endpoint.url",
        "sasl.oauthbearer.client.id", "sasl.oauthbearer.client.secret"]).append
        (keys_optPair "sasl.oauthbearer.scope" scope)).append hextensions
  | gcpIam principal credentialsFile =>
      simp only [Sasl.entries, List.map_append]
      exact ((List.Sublist.refl ["sasl.mechanism", "sasl.oauthbearer.method"]).append
        (keys_optPair "gcp.principal" principal)).append
        (keys_optPair "gcp.credentials.file" credentialsFile)

theorem nodup_saslKeys (sasl : Sasl) : (Options.saslKeys sasl).Nodup := by
  cases sasl <;> simp [Options.saslKeys]

/-- A mechanism writes each of its keys once. -/
theorem nodup_keys_saslEntries (sasl : Sasl) : (sasl.entries.map Prod.fst).Nodup :=
  (keys_saslEntries sasl).nodup ((nodup_saslKeys sasl).erase _)

theorem mem_saslKeys {sasl : Sasl} {key : String} (h : key ∈ sasl.entries.map Prod.fst) :
    key ∈ Options.saslKeys sasl ∧ key ≠ "sasl.mechanisms" :=
  ((nodup_saslKeys sasl).mem_erase_iff.mp ((keys_saslEntries sasl).subset h)).symm

/-- The typed setters list every key they write. -/
theorem mem_typedSecurityKeys {key : String} (h : key ∈ o.securityEntries.map Prod.fst) :
    key ∈ o.typedSecurityKeys := by
  unfold Options.securityEntries at h
  unfold Options.typedSecurityKeys
  split_ifs at h ⊢ with hactive
  · rw [List.map_cons, List.map_append, List.mem_cons, List.mem_append] at h
    rw [List.mem_cons, List.mem_append]
    refine h.imp id (Or.imp id ?_)
    cases o.sasl with
    | none => exact fun hno => hno
    | some sasl => exact fun hkey => (mem_saslKeys hkey).1
  · exact h

/-- The keys of the TLS setters. -/
def tlsKeys : List String :=
  ["ssl.ca.location", "ssl.ca.pem", "ssl.certificate.location", "ssl.key.location",
    "ssl.certificate.pem", "ssl.key.pem", "enable.ssl.certificate.verification",
    "ssl.endpoint.identification.algorithm"]

theorem TypedSecurity.mem_tlsKeys (h : TypedSecurity o) {key : String}
    (hkey : key ∈ o.sslEntries.map Prod.fst) : key ∈ tlsKeys := by
  obtain ⟨p, hp, rfl⟩ := List.mem_map.mp hkey
  rcases h.pairs p hp with hlocation | rfl | rfl
  · exact List.mem_append_left ["enable.ssl.certificate.verification",
      "ssl.endpoint.identification.algorithm"] hlocation
  · decide
  · decide

/-- No mechanism writes a key of the TLS setters, or the protocol. -/
theorem not_mem_saslKeys {sasl : Sasl} {key : String} (h : key ∈ "security.protocol" :: tlsKeys) :
    key ∉ Options.saslKeys sasl := by
  cases sasl <;>
    (simp only [Options.saslKeys]
     revert key
     decide)

/-- The value of a key the mechanism writes. -/
theorem last_saslEntries {sasl : Sasl} (hsasl : sasl ∈ o.sasl) {key value : String}
    (h : (key, value) ∈ sasl.entries) : Assoc.last o.securityEntries key = some value := by
  have hactive : o.securityActive = true := by
    simp [Options.securityActive, Option.mem_def.mp hsasl]
  have hlast : Assoc.last sasl.entries key = some value := by
    obtain ⟨before, after, heq⟩ := List.append_of_mem h
    have hnodup := nodup_keys_saslEntries sasl
    rw [heq, List.map_append, List.map_cons, List.nodup_middle, List.nodup_cons] at hnodup
    exact Assoc.last_eq_some_iff.mpr
      ⟨before, after, heq, fun hmem => hnodup.1 (List.mem_append_right _ hmem)⟩
  rw [Options.securityEntries, if_pos hactive, Assoc.last, Assoc.last_append,
    Option.mem_def.mp hsasl, Option.elim_some, hlast]
  rfl

/-- The value of a key the mechanism does not write, other than the protocol. -/
theorem last_securityEntries_of_not_mem (hactive : o.securityActive = true) {key : String}
    (hne : key ≠ "security.protocol") (h : ∀ sasl ∈ o.sasl, key ∉ sasl.entries.map Prod.fst) :
    Assoc.last o.securityEntries key = Assoc.last o.sslEntries key := by
  have hsasl : Assoc.last (o.sasl.elim [] Sasl.entries) key = none := by
    rw [Assoc.last_eq_none_iff]
    cases hs : o.sasl with
    | none => simp
    | some sasl => exact h sasl hs
  rw [Options.securityEntries, if_pos hactive, Assoc.last, Assoc.last_append, hsasl,
    Option.none_or, if_neg hne.symm, Option.or_none]

theorem last_protocol (h : TypedSecurity o) (hactive : o.securityActive = true) :
    Assoc.last o.securityEntries "security.protocol" = some o.protocol := by
  have hssl : Assoc.last o.sslEntries "security.protocol" = none := by
    rw [Assoc.last_eq_none_iff]
    exact fun hmem => absurd (h.mem_tlsKeys hmem) (by decide)
  have hsasl : Assoc.last (o.sasl.elim [] Sasl.entries) "security.protocol" = none := by
    rw [Assoc.last_eq_none_iff]
    cases o.sasl with
    | none => simp
    | some sasl => exact fun hmem => not_mem_saslKeys List.mem_cons_self (mem_saslKeys hmem).1
  rw [Options.securityEntries, if_pos hactive, Assoc.last, Assoc.last_append, hssl, hsasl]
  rfl

/-- Only a mechanism writes keys beyond the protocol and the TLS setters'. -/
theorem mem_securityEntries (h : TypedSecurity o) {key : String}
    (hkey : key ∈ o.securityEntries.map Prod.fst) :
    key ∈ "security.protocol" :: tlsKeys ∨ ∃ sasl ∈ o.sasl, key ∈ sasl.entries.map Prod.fst := by
  unfold Options.securityEntries at hkey
  split_ifs at hkey
  · rw [List.map_cons, List.map_append, List.mem_cons, List.mem_append] at hkey
    rcases hkey with rfl | hssl | hsasl
    · exact .inl List.mem_cons_self
    · exact .inl (List.mem_cons_of_mem _ (h.mem_tlsKeys hssl))
    · cases hs : o.sasl with
      | none =>
          rw [hs] at hsasl
          cases hsasl
      | some sasl =>
          rw [hs] at hsasl
          exact .inr ⟨sasl, rfl, hsasl⟩
  · cases hkey

end

end LlingrKafka.Builder

import LlingrKafka.Options.InForce
import LlingrKafka.Security.Raised

/-!
# No option is a silent no-op

`noSilentNoOp`: the pops and the translation either fail, with a bad option or a credential
source that failed, or every key of the map was taken by exactly one stage and what the
stages return is exactly what their keys translate to.  The order of the map shows in
neither.
-/

namespace LlingrKafka.Options

open Bridge Checks Security

/-- What consumes a key. -/
inductive Stage
  | logLevel
  | pollError
  | security
  | table
  deriving DecidableEq, Repr

/-- The keys of a stage. -/
def Stage.keys : Stage → List String
  | logLevel => ["llingr.client.log.level"]
  | pollError => pollErrorKeys
  | security => franzSecurityCollectors.map Prod.fst
  | table => franzOptionKeys.map Prod.fst

/-- No key has two stages, and no reserved key has one. -/
theorem disjoint_stages : ∀ stage stage' : Stage, stage ≠ stage' →
    ∀ key ∈ stage.keys, key ∉ stage'.keys := by
  intro stage stage'
  cases stage <;> cases stage' <;> decide

theorem reserved_not_mem_keys : ∀ stage : Stage, ∀ key ∈ stage.keys,
    key ∉ reservedOptionKeys.map Prod.fst := by
  intro stage
  cases stage <;> decide

section

variable {Roots Cert : Type} (env : SecurityEnv Roots Cert) (m : GoMap String String)

/-- What the security keys of the map have become: every field holds what its key says, and the
options are what the fields ask for. -/
structure SecurityConsumed (s : FranzSecurity) (opts : List (SecurityOpt Roots Cert)) : Prop where
  collected : FranzSecurity.zero.collectAll (securityPairs m.sorted) = some s
  built : s.build env = .ok opts
  fields : ∀ f, s.field f = given (securityPairs m.sorted) f
  /-- A field has one key, whose value it holds. -/
  ownKey : ∀ f, f ≠ .mechanism → s.field f = ((m.get? f.key).map f.normal).getD ""
  /-- The mechanism has two, and the plural spelling, where it is given, has the last word. -/
  mechanism : s.field .mechanism =
    ((m.get? "sasl.mechanisms").or (m.get? "sasl.mechanism")).getD ""
  sawKey : s.sawKey = true ↔ ∃ key ∈ Stage.security.keys, (m.get? key).isSome
  posture : Posture env s opts

/-- Every key of the map was consumed once, and the result is what the keys stand for. -/
structure Consumed (r : FranzOptions Roots Cert) : Prop where
  stage : ∀ key, (m.get? key).isSome → ∃! stage : Stage, key ∈ stage.keys
  clientLogLevel : (m.get? "llingr.client.log.level").map Options.clientLogLevel =
    r.clientLogLevel.map .ok
  pollErrors : ∃ bail interval backoff : Option AdapterOption,
    (m.get? "llingr.poll.error.bail.after.ms").map pollErrorBailAfter = bail.map .ok ∧
    (m.get? "llingr.poll.error.log.interval.ms").map pollErrorLogInterval = interval.map .ok ∧
    (m.get? "llingr.poll.error.backoff.ms").map pollErrorBackoff = backoff.map .ok ∧
    r.pollErrorOpts = bail.toList ++ interval.toList ++ backoff.toList
  /-- The options of the table, one for each of its keys in order, then those of the security
  keys. -/
  opts : ∃ (s : FranzSecurity) (securityOpts : List (SecurityOpt Roots Cert))
      (tableOpts : List (Option ClientOpt)),
    SecurityConsumed env m s securityOpts ∧
    List.Forall₂ Translates (tablePairs m.sorted) tableOpts ∧
    r.opts = tableOpts.reduceOption.map .client ++ securityOpts.map .security
  /-- A key of the table gives an option of its own, unless it restates a default. -/
  row : ∀ p ∈ tablePairs m.sorted, ∃ opt, Translates p opt ∧
    (opt = none ↔ RestatesDefault p.1 p.2) ∧ ∀ o ∈ opt, p.1 ∈ o.keys
  reserved : ∀ key ∈ reservedOptionKeys.map Prod.fst, m.get? key = none

/-- The options the client is made with: `buildFranzConsumer` puts its isolation level first. -/
def bridgeOpts (opts : List (KgoOpt Roots Cert)) : List (KgoOpt Roots Cert) :=
  .client (.fetchIsolationLevel .readCommitted) :: opts

/-- The isolation level of the fetches; the client's own default is the weaker one. -/
def fetchIsolation (opts : List (KgoOpt Roots Cert)) : IsolationLevel :=
  (inForce ClientOpt.isolationLevel? opts).getD .readUncommitted

end

section

variable {Roots Cert : Type} {env : SecurityEnv Roots Cert} {m : GoMap String String}

theorem translates_spec {p : String × String} {opt : Option ClientOpt} (h : Translates p opt) :
    (opt = none ↔ RestatesDefault p.1 p.2) ∧ (∀ o ∈ opt, p.1 ∈ o.keys) ∧
      opt ≠ some (.fetchIsolationLevel .readUncommitted) := by
  obtain ⟨translate, hlookup, htranslate⟩ := h
  have hspec := rowSpec_of_translator hlookup
  refine ⟨?_, ?_, ?_⟩
  · rw [← hspec.default]
    show _ ↔ translate p.2 = .ok none
    rw [htranslate, Except.ok.injEq]
  · rintro o rfl
    exact hspec.option htranslate
  · rintro rfl
    exact hspec.committed htranslate

/-- Every level that is set is read committed, and one is set first. -/
theorem fetchIsolation_bridgeOpts {opts : List (KgoOpt Roots Cert)}
    (h : KgoOpt.client (.fetchIsolationLevel .readUncommitted) ∉ opts) :
    fetchIsolation (bridgeOpts opts) = .readCommitted := by
  have hlevels : ∀ level ∈ (bridgeOpts opts).filterMap (KgoOpt.sets ClientOpt.isolationLevel?),
      level = .readCommitted := by
    intro level hlevel
    obtain ⟨opt, hopt, hsets⟩ := List.mem_filterMap.mp hlevel
    rcases List.mem_cons.mp hopt with rfl | hopt
    · exact (Option.some_inj.mp hsets).symm
    · cases opt with
      | security opt => cases hsets
      | client opt =>
          cases level with
          | readCommitted => rfl
          | readUncommitted =>
              have hset : opt = .fetchIsolationLevel .readUncommitted := by
                cases opt <;>
                  simp_all [KgoOpt.sets, ClientOpt.isolationLevel?]
              exact absurd (hset ▸ hopt) h
  have hne : (bridgeOpts opts).filterMap (KgoOpt.sets ClientOpt.isolationLevel?) ≠ [] := by
    simp [bridgeOpts, KgoOpt.sets, ClientOpt.isolationLevel?]
  rw [fetchIsolation, inForce, List.getLast?_eq_some_getLast hne, Option.getD_some]
  exact hlevels _ (List.getLast_mem hne)

/-- What is in force is read off the map. -/
theorem Consumed.inForce_eq {α : Type} {read : ClientOpt → Option α} {r : FranzOptions Roots Cert}
    (h : Consumed env m r) :
    inForce read r.opts = (m.sorted.filterMap (pairSets read)).getLast? := by
  obtain ⟨s, securityOpts, tableOpts, -, htable, hopts⟩ := h.opts
  rw [hopts, inForce_tableOpts htable, filterMap_tablePairs]

theorem exists_of_forall₂ {α β : Type} {R : α → β → Prop} {l : List α} {l' : List β}
    (h : List.Forall₂ R l l') : (∀ a ∈ l, ∃ b ∈ l', R a b) ∧ ∀ b ∈ l', ∃ a ∈ l, R a b := by
  induction h with
  | nil => simp
  | @cons a b l l' hab _ ih =>
      constructor
      · intro c hc
        rcases List.mem_cons.mp hc with rfl | hc
        · exact ⟨b, List.mem_cons_self, hab⟩
        · obtain ⟨d, hd, hcd⟩ := ih.1 c hc
          exact ⟨d, List.mem_cons_of_mem _ hd, hcd⟩
      · intro d hd
        rcases List.mem_cons.mp hd with rfl | hd
        · exact ⟨a, List.mem_cons_self, hab⟩
        · obtain ⟨c, hc, hcd⟩ := ih.2 d hd
          exact ⟨c, List.mem_cons_of_mem _ hc, hcd⟩

/-- No pair of the map is lost between the collectors and the options. -/
theorem securityConsumed {s : FranzSecurity} {opts : List (SecurityOpt Roots Cert)}
    (hcollect : FranzSecurity.zero.collectAll (securityPairs m.sorted) = some s)
    (hbuild : s.build env = .ok opts) : SecurityConsumed env m s opts where
  collected := hcollect
  built := hbuild
  fields := collected_field hcollect
  ownKey f hf := by
    rw [collected_field hcollect]
    exact given_sorted fun heq => absurd heq hf
  mechanism := by
    rw [collected_field hcollect]
    exact given_mechanism
  sawKey := by
    rw [collectAll_sawKey hcollect]
    constructor
    · intro hsaw
      obtain ⟨p, hp⟩ := List.exists_mem_of_ne_nil (securityPairs m.sorted) (by
        rintro hnil
        rw [hnil] at hsaw
        cases hsaw)
      have hget := GoMap.mem_sorted.mp (List.mem_of_mem_filter hp)
      exact ⟨p.1, Assoc.isSome_lookup_iff.mp (List.mem_filter.mp hp).2, by rw [hget]; rfl⟩
    · rintro ⟨key, hkey, hsome⟩
      obtain ⟨value, hget⟩ := Option.isSome_iff_exists.mp hsome
      have hp : (key, value) ∈ securityPairs m.sorted :=
        List.mem_filter.mpr ⟨GoMap.mem_sorted.mpr hget, Assoc.isSome_lookup_iff.mpr hkey⟩
      cases hpairs : securityPairs m.sorted with
      | nil =>
          rw [hpairs] at hp
          cases hp
      | cons p pairs => rfl
  posture := posture_of_collected hcollect hbuild

/-- What the stages do when they all succeed. -/
theorem consumed_of_franzOptions {r : FranzOptions Roots Cert} (h : franzOptions env m = .ok r) :
    Consumed env m r := by
  obtain ⟨⟨level, m₁⟩, hlevel, h⟩ := bind_eq_ok.mp h
  obtain ⟨⟨pollErrors, m₂⟩, hpollErrors, h⟩ := bind_eq_ok.mp h
  obtain ⟨opts, hopts, h⟩ := bind_eq_ok.mp h
  obtain rfl := Except.ok.inj h
  obtain ⟨hlevelValue, hm₁⟩ := pop_eq_ok hlevel
  obtain ⟨bail, interval, backoff, hbail, hinterval, hbackoff, hlist, hm₂⟩ :=
    popPollErrorOptions_eq_ok hpollErrors
  simp only at hbail hinterval hbackoff hm₂ hopts
  obtain ⟨hkeys, s, securityOpts, tableOpts, hcollect, hbuild, htable, hopts⟩ :=
    franzKgoOpts_eq_ok hopts
  -- what the pops leave
  have hrest : ∀ key, m₂.get? key =
      if key = "llingr.client.log.level" ∨ key ∈ pollErrorKeys then none else m.get? key := by
    intro key
    rw [hm₂, hm₁]
    by_cases hpoll : key ∈ pollErrorKeys
    · rw [if_pos hpoll, if_pos (.inr hpoll)]
    · rw [if_neg hpoll]
      by_cases hlog : key = "llingr.client.log.level"
      · rw [if_pos hlog, if_pos (.inl hlog)]
      · rw [if_neg hlog, if_neg (by simp [hlog, hpoll])]
  have hagree : ∀ stage : Stage, stage ≠ .logLevel → stage ≠ .pollError → ∀ key ∈ stage.keys,
      m₂.get? key = m.get? key := by
    intro stage hlog hpoll key hkey
    rw [hrest, if_neg]
    rintro (rfl | hmem)
    · exact disjoint_stages stage .logLevel hlog _ hkey (List.mem_singleton_self _)
    · exact disjoint_stages stage .pollError hpoll _ hkey hmem
  have hsecurity : securityPairs m₂.sorted = securityPairs m.sorted :=
    GoMap.filter_sorted_congr (fun key => (collector key).isSome) fun key hkey =>
      hagree .security (by decide) (by decide) key (Assoc.isSome_lookup_iff.mp hkey)
  have htablePairs : tablePairs m₂.sorted = tablePairs m.sorted :=
    GoMap.filter_sorted_congr (fun key => (translator key).isSome) fun key hkey =>
      hagree .table (by decide) (by decide) key (Assoc.isSome_lookup_iff.mp hkey)
  have hconsumed : ∀ key value, m.get? key = some value → ∃ stage : Stage, key ∈ stage.keys := by
    intro key value hget
    by_cases hlog : key = "llingr.client.log.level"
    · exact ⟨.logLevel, List.mem_singleton.mpr hlog⟩
    · by_cases hpoll : key ∈ pollErrorKeys
      · exact ⟨.pollError, hpoll⟩
      · have hleft : (key, value) ∈ m₂.sorted := by
          rw [GoMap.mem_sorted, hrest, if_neg (by simp [hlog, hpoll])]
          exact hget
        rcases (hkeys _ hleft).2 with hcollector | htranslator
        · exact ⟨.security, Assoc.isSome_lookup_iff.mp hcollector⟩
        · exact ⟨.table, Assoc.isSome_lookup_iff.mp htranslator⟩
  rw [hsecurity] at hcollect
  rw [htablePairs] at htable
  constructor
  case stage =>
    intro key hsome
    obtain ⟨value, hget⟩ := Option.isSome_iff_exists.mp hsome
    obtain ⟨stage, hstage⟩ := hconsumed key value hget
    refine ⟨stage, hstage, fun stage' hstage' => ?_⟩
    by_contra hne
    exact disjoint_stages stage' stage hne key hstage' hstage
  case clientLogLevel => exact hlevelValue
  case pollErrors =>
    rw [hm₁, if_neg (by decide)] at hbail hinterval hbackoff
    exact ⟨bail, interval, backoff, hbail, hinterval, hbackoff, hlist⟩
  case opts => exact ⟨s, securityOpts, tableOpts, securityConsumed hcollect hbuild, htable, hopts⟩
  case row =>
    intro p hp
    obtain ⟨opt, -, htranslates⟩ := (exists_of_forall₂ htable).1 p hp
    exact ⟨opt, htranslates, (translates_spec htranslates).1, (translates_spec htranslates).2.1⟩
  case reserved =>
    intro key hkey
    by_contra hsome
    obtain ⟨value, hget⟩ := Option.ne_none_iff_exists'.mp hsome
    obtain ⟨stage, hstage⟩ := hconsumed key value hget
    exact reserved_not_mem_keys stage key hstage hkey

/-- Without a row for the weaker level, no option of the map sets it. -/
theorem Consumed.committed {r : FranzOptions Roots Cert} (h : Consumed env m r) :
    fetchIsolation (bridgeOpts r.opts) = .readCommitted := by
  obtain ⟨s, securityOpts, tableOpts, -, htable, hopts⟩ := h.opts
  apply fetchIsolation_bridgeOpts
  rw [hopts]
  intro hmem
  rcases List.mem_append.mp hmem with hclient | hsecurity
  · obtain ⟨opt, hopt, heq⟩ := List.mem_map.mp hclient
    obtain rfl := KgoOpt.client.inj heq
    obtain ⟨p, -, htranslates⟩ := (exists_of_forall₂ htable).2 _ (List.reduceOption_mem_iff.mp hopt)
    exact (translates_spec htranslates).2.2 rfl
  · obtain ⟨opt, -, heq⟩ := List.mem_map.mp hsecurity
    cases heq

theorem code_of_pop {α : Type} {key : String} {parse : String → Except OptionFault α}
    {e : OptionFault} (hparse : ∀ {raw e}, parse raw = .error e → e.code = .badOption)
    (h : pop m key parse = .error e) : e.code = .badOption := by
  obtain ⟨raw, -, herror⟩ := pop_eq_error h
  exact hparse herror

theorem code_of_clientLogLevel {raw : String} {e : OptionFault}
    (h : clientLogLevel raw = .error e) : e.code = .badOption := by
  unfold clientLogLevel at h
  split_ifs at h
  rw [← Except.error.inj h]
  rfl

theorem code_of_pollErrorBailAfter {raw : String} {e : OptionFault}
    (h : pollErrorBailAfter raw = .error e) : e.code = .badOption := by
  rcases bind_eq_error.mp h with hparse | ⟨d, -, h⟩
  · exact code_of_nonNegativeMillisOption hparse
  · rcases reject_bind_eq_error.mp h with ⟨-, rfl⟩ | ⟨-, h⟩
    · rfl
    · cases h

theorem code_of_pollErrorLogInterval {raw : String} {e : OptionFault}
    (h : pollErrorLogInterval raw = .error e) : e.code = .badOption :=
  code_of_millisOption (map_eq_error.mp h)

theorem code_of_pollErrorBackoff {raw : String} {e : OptionFault}
    (h : pollErrorBackoff raw = .error e) : e.code = .badOption := by
  rcases bind_eq_error.mp h with hparse | ⟨d, -, h⟩
  · exact code_of_nonNegativeMillisOption hparse
  · rcases reject_bind_eq_error.mp h with ⟨-, rfl⟩ | ⟨-, h⟩
    · rfl
    · cases h

theorem code_of_popPollErrorOptions {e : OptionFault} (h : popPollErrorOptions m = .error e) :
    e.code = .badOption := by
  rcases bind_eq_error.mp h with hpop | ⟨bail, -, h⟩
  · exact code_of_pop code_of_pollErrorBailAfter hpop
  rcases bind_eq_error.mp h with hpop | ⟨interval, -, h⟩
  · exact code_of_pop code_of_pollErrorLogInterval hpop
  rcases bind_eq_error.mp h with hpop | ⟨backoff, -, h⟩
  · exact code_of_pop code_of_pollErrorBackoff hpop
  · cases h

/-- A failure is a bad option, or a credential source that failed. -/
theorem code_of_franzOptions {e : OptionFault} (h : franzOptions env m = .error e) :
    e.code = .badOption ∨
      (e.code = .adapter ∧ ∃ fault, e = .security fault ∧ CredentialFailure env fault) := by
  rcases bind_eq_error.mp h with hlevel | ⟨level, -, h⟩
  · exact .inl (code_of_pop code_of_clientLogLevel hlevel)
  rcases bind_eq_error.mp h with hpollErrors | ⟨pollErrors, -, h⟩
  · exact .inl (code_of_popPollErrorOptions hpollErrors)
  rcases bind_eq_error.mp h with hopts | ⟨opts, -, h⟩
  · rcases franzKgoOpts_eq_error hopts with ⟨p, -, hrefused⟩ | ⟨s, fault, -, hbuild, rfl⟩
    · exact .inl hrefused.code_eq
    · exact (credentialFailure_of_build hbuild).imp id fun h => ⟨h.1, fault, rfl, h.2⟩
  · cases h

end

/-- No option is silently ignored, whatever the map and the order it is visited in. -/
theorem noSilentNoOp {Roots Cert : Type} (env : SecurityEnv Roots Cert)
    (m : GoMap String String) :
    (∀ e, franzOptions env m = .error e → e.code = .badOption ∨
      (e.code = .adapter ∧ ∃ fault, e = .security fault ∧ CredentialFailure env fault)) ∧
    (∀ r, franzOptions env m = .ok r →
      Consumed env m r ∧ fetchIsolation (bridgeOpts r.opts) = .readCommitted) ∧
    ∀ m', SameMap m m' → franzOptions env m' = franzOptions env m := by
  refine ⟨fun e => code_of_franzOptions, fun r hr => ?_,
    fun m' hsame => (franzOptions_same hsame).symm⟩
  have hconsumed := consumed_of_franzOptions hr
  exact ⟨hconsumed, hconsumed.committed⟩

/-- Keys of all four stages: SCRAM over TLS with both spellings of the mechanism, and a switch
that restates its default. -/
def mixedMap : GoMap String String where
  entries := [("security.protocol", " SASL_SSL"), ("isolation.level", "READ_COMMITTED"),
    ("llingr.client.log.level", "warn"), ("check.crcs", "true"), ("sasl.password", "p"),
    ("llingr.poll.error.backoff.ms", "0"), ("client.id", "c"), ("sasl.username", "u"),
    ("sasl.mechanisms", "scram-sha-256"), ("sasl.mechanism", "PLAIN"), ("ssl.ca.pem", "ca")]
  nodup := by decide

theorem noSilentNoOp_mixed :
    ∃ r, franzOptions openEnv mixedMap = .ok r ∧ Consumed openEnv mixedMap r ∧
      fetchIsolation (bridgeOpts r.opts) = .readCommitted ∧
      saslInForce r.opts = some "SCRAM-SHA-256" := by
  have hsasl : (franzOptions openEnv mixedMap).toOption.bind (fun r => saslInForce r.opts) =
      some "SCRAM-SHA-256" := by decide +kernel
  cases hok : franzOptions openEnv mixedMap with
  | error e =>
      rw [hok] at hsasl
      cases hsasl
  | ok r =>
      rw [hok] at hsasl
      obtain ⟨hconsumed, hcommitted⟩ := (noSilentNoOp openEnv mixedMap).2.1 r hok
      exact ⟨r, rfl, hconsumed, hcommitted, hsasl⟩

end LlingrKafka.Options

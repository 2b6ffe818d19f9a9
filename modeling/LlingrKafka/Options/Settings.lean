import LlingrKafka.Options.NoSilentNoOp

/-!
# The settings of a map

The three results of the translation as one list of settings, and what one pair is parsed to
by whichever stage takes its key (`parsePair`).  Of an accepted map the settings are, up to
order, what its pairs are parsed to (`settings_perm`), and a map of client keys is refused
only for a pair that does not parse (`exists_parse_error`).
-/

namespace LlingrKafka.Options

open Checks Security

/-- One setting of the client, or of the adapter around it. -/
inductive Setting
  | client (opt : ClientOpt)
  | logLevel (level : LogLevel)
  | pollError (o : AdapterOption)
  deriving DecidableEq, Repr

/-- The client option of an option. -/
def KgoOpt.client? {Roots Cert : Type} : KgoOpt Roots Cert → Option ClientOpt
  | client opt => some opt
  | security _ => none

/-- The settings that do not come from the security keys. -/
def FranzOptions.settings {Roots Cert : Type} (r : FranzOptions Roots Cert) : List Setting :=
  r.clientLogLevel.toList.map .logLevel ++ r.pollErrorOpts.map .pollError ++
    (r.opts.filterMap KgoOpt.client?).map .client

/-- The pops, and what they parse. -/
def adapterParsers : List (String × (String → Except OptionFault Setting)) :=
  [("llingr.client.log.level", fun raw => (clientLogLevel raw).map .logLevel),
    ("llingr.poll.error.bail.after.ms", fun raw => (pollErrorBailAfter raw).map .pollError),
    ("llingr.poll.error.log.interval.ms", fun raw => (pollErrorLogInterval raw).map .pollError),
    ("llingr.poll.error.backoff.ms", fun raw => (pollErrorBackoff raw).map .pollError)]

/-- What a pair is parsed to, by the pop or the row of its key. -/
def parsePair (p : String × String) : Except OptionFault (Option Setting) :=
  match adapterParsers.lookup p.1 with
  | some parse => (parse p.2).map some
  | none =>
      match translator p.1 with
      | some translate => (translate p.2).map (Option.map .client)
      | none => .ok none

/-- The setting of a pair. -/
def settingOf (p : String × String) : Option Setting := (parsePair p).toOption.join

/-- The keys that are not about security. -/
def clientKeys : List String := franzOptionKeys.map Prod.fst ++ adapterOptionKeys

/-! ## Parsing a pair -/

theorem parsePair_of_adapter {key : String} {parse : String → Except OptionFault Setting}
    (h : (key, parse) ∈ adapterParsers) (value : String) :
    parsePair (key, value) = (parse value).map some := by
  have hlookup : adapterParsers.lookup key = some parse :=
    Assoc.lookup_eq_some_of_mem (by decide) h
  simp only [parsePair, hlookup]

theorem lookup_adapterParsers {key : String} (h : key ∉ adapterOptionKeys) :
    adapterParsers.lookup key = none := by
  rw [← Option.not_isSome_iff_eq_none, Assoc.isSome_lookup_iff]
  exact h

theorem parsePair_of_translator {key : String} {translate : Translator}
    (h : translator key = some translate) (value : String) :
    parsePair (key, value) = (translate value).map (Option.map .client) := by
  have hkeys : ∀ key ∈ franzOptionKeys.map Prod.fst, key ∉ adapterOptionKeys := by decide
  have hkey : key ∈ franzOptionKeys.map Prod.fst :=
    Assoc.isSome_lookup_iff.mp (by rw [← translator, h]; rfl)
  simp only [parsePair, lookup_adapterParsers (hkeys key hkey), h]

section

variable {raw : String} {d : ℤ}

theorem pollErrorBailAfter_accepted
    (hparse : nonNegativeMillisOption "llingr.poll.error.bail.after.ms" raw = .ok d)
    (h : ¬ (d ≠ 0 ∧ (d < minPollErrorBailAfter ∨ d > maxPollErrorBailAfter))) :
    pollErrorBailAfter raw = .ok (.pollErrorBailAfter d) :=
  bind_eq_ok.mpr ⟨d, hparse, bind_eq_ok.mpr ⟨(), reject_eq_ok.mpr h, rfl⟩⟩

theorem pollErrorBailAfter_rejected
    (hparse : nonNegativeMillisOption "llingr.poll.error.bail.after.ms" raw = .ok d)
    (h : d ≠ 0 ∧ (d < minPollErrorBailAfter ∨ d > maxPollErrorBailAfter)) :
    pollErrorBailAfter raw = .error (.bailAfter d) :=
  bind_eq_error.mpr (.inr ⟨d, hparse, reject_bind_eq_error.mpr (.inl ⟨h, rfl⟩)⟩)

theorem pollErrorBackoff_accepted
    (hparse : nonNegativeMillisOption "llingr.poll.error.backoff.ms" raw = .ok d)
    (h : ¬ d > maxPollErrorBackoff) : pollErrorBackoff raw = .ok (.pollErrorBackoff d) :=
  bind_eq_ok.mpr ⟨d, hparse, bind_eq_ok.mpr ⟨(), reject_eq_ok.mpr h, rfl⟩⟩

theorem pollErrorBackoff_rejected
    (hparse : nonNegativeMillisOption "llingr.poll.error.backoff.ms" raw = .ok d)
    (h : d > maxPollErrorBackoff) : pollErrorBackoff raw = .error (.backoff d) :=
  bind_eq_error.mpr (.inr ⟨d, hparse, reject_bind_eq_error.mpr (.inl ⟨h, rfl⟩)⟩)

end

/-- Whatever stage takes a pair, it fails with a bad option. -/
theorem code_of_parsePair {p : String × String} {e : OptionFault} (h : parsePair p = .error e) :
    e.code = .badOption := by
  unfold parsePair at h
  split at h
  · rename_i parse hlookup
    have hparse := map_eq_error.mp h
    obtain ⟨before, after, heq, -⟩ := List.lookup_eq_some_iff.mp hlookup
    have hmem : (p.1, parse) ∈ adapterParsers := by
      rw [heq]
      exact List.mem_append_right _ List.mem_cons_self
    simp only [adapterParsers, List.mem_cons, Prod.mk.injEq, List.not_mem_nil, or_false] at hmem
    rcases hmem with ⟨-, rfl⟩ | ⟨-, rfl⟩ | ⟨-, rfl⟩ | ⟨-, rfl⟩
    · exact code_of_clientLogLevel (map_eq_error.mp hparse)
    · exact code_of_pollErrorBailAfter (map_eq_error.mp hparse)
    · exact code_of_pollErrorLogInterval (map_eq_error.mp hparse)
    · exact code_of_pollErrorBackoff (map_eq_error.mp hparse)
  · split at h
    · rename_i translate htranslator
      exact (rowSpec_of_translator htranslator).fault (map_eq_error.mp h)
    · cases h

/-- A key of the adapter has no row. -/
theorem settingOf_of_table {p : String × String} (h : p.1 ∉ adapterOptionKeys) :
    settingOf p = (pairSets some p).map .client := by
  rw [settingOf, parsePair, lookup_adapterParsers h, pairSets]
  cases translator p.1 with
  | none => rfl
  | some translate =>
      simp only [Option.bind_some]
      cases translate p.2 with
      | error e => rfl
      | ok opt => cases opt <;> rfl

/-- A value that was popped is the setting of its key. -/
theorem toList_settingOf_pop {α : Type} {m : GoMap String String} {key : String}
    {parse : String → Except OptionFault α} {o : Option α} (setting : α → Setting)
    (hrow : (key, fun raw => (parse raw).map setting) ∈ adapterParsers)
    (h : (m.get? key).map parse = o.map .ok) :
    ((m.get? key).bind fun value => settingOf (key, value)).toList = o.toList.map setting := by
  cases hget : m.get? key with
  | none =>
      rw [hget] at h
      cases o with
      | none => rfl
      | some a => cases h
  | some value =>
      rw [hget] at h
      cases o with
      | none => cases h
      | some a =>
          have hparse : parse value = .ok a := Option.some_inj.mp h
          rw [Option.bind_some, settingOf, parsePair_of_adapter hrow, hparse]
          rfl

section

variable {Roots Cert : Type} {env : SecurityEnv Roots Cert} {m : GoMap String String}

/-- The options of the table are what the pairs of the table are parsed to. -/
theorem clientOpts_eq {r : FranzOptions Roots Cert} (h : Consumed env m r) :
    r.opts.filterMap KgoOpt.client? = m.sorted.filterMap (pairSets some) := by
  obtain ⟨s, securityOpts, tableOpts, -, htable, hopts⟩ := h.opts
  have hsecurity : (securityOpts.map KgoOpt.security : List (KgoOpt Roots Cert)).filterMap
      KgoOpt.client? = [] := by
    rw [List.filterMap_map]
    exact List.filterMap_eq_nil_iff.mpr fun _ _ => rfl
  have hclient : (tableOpts.reduceOption.map .client : List (KgoOpt Roots Cert)).filterMap
      KgoOpt.client? = tableOpts.reduceOption := by
    rw [List.filterMap_map]
    exact List.filterMap_some
  have hpairs : ∀ {pairs : List (String × String)} {tableOpts : List (Option ClientOpt)},
      List.Forall₂ Translates pairs tableOpts →
        tableOpts.reduceOption = pairs.filterMap (pairSets some) := by
    intro pairs tableOpts h
    induction h with
    | nil => rfl
    | @cons p opt pairs tableOpts hp _ ih =>
        rw [List.filterMap_cons, pairSets_of_translates hp]
        cases opt with
        | none => exact ih
        | some o =>
            rw [List.reduceOption_cons_of_some, ih]
            rfl
  rw [hopts, List.filterMap_append, hsecurity, hclient, List.append_nil, hpairs htable,
    filterMap_tablePairs]

open List in
/-- The settings of an accepted map are what its pairs are parsed to. -/
theorem settings_perm {r : FranzOptions Roots Cert} (h : Consumed env m r) :
    r.settings.Perm (m.sorted.filterMap settingOf) := by
  obtain ⟨bail, interval, backoff, hbail, hinterval, hbackoff, hpollErrors⟩ := h.pollErrors
  -- the keys of the adapter are taken out one after the other
  have htake := fun (f : String × String → Option Setting) (key : String) =>
    Assoc.filterMap_perm_key f key m.nodup_keys_sorted
  have hlevelTaken := htake settingOf "llingr.client.log.level"
  have hbailTaken := htake (fun p => if p.1 = "llingr.client.log.level" then none
    else settingOf p) "llingr.poll.error.bail.after.ms"
  have hintervalTaken := htake (fun p => if p.1 = "llingr.poll.error.bail.after.ms" then none
    else if p.1 = "llingr.client.log.level" then none else settingOf p)
    "llingr.poll.error.log.interval.ms"
  have hbackoffTaken := htake (fun p => if p.1 = "llingr.poll.error.log.interval.ms" then none
    else if p.1 = "llingr.poll.error.bail.after.ms" then none
    else if p.1 = "llingr.client.log.level" then none else settingOf p)
    "llingr.poll.error.backoff.ms"
  simp only [GoMap.last_sorted, String.reduceEq, reduceIte] at hlevelTaken hbailTaken
  simp only [GoMap.last_sorted, String.reduceEq, reduceIte] at hintervalTaken hbackoffTaken
  rw [toList_settingOf_pop .logLevel (by simp [adapterParsers]) h.clientLogLevel] at hlevelTaken
  rw [toList_settingOf_pop .pollError (by simp [adapterParsers]) hbail] at hbailTaken
  rw [toList_settingOf_pop .pollError (by simp [adapterParsers]) hinterval] at hintervalTaken
  rw [toList_settingOf_pop .pollError (by simp [adapterParsers]) hbackoff] at hbackoffTaken
  -- what is left are the pairs of the table
  have hleft : (fun p : String × String => if p.1 = "llingr.poll.error.backoff.ms" then none
      else if p.1 = "llingr.poll.error.log.interval.ms" then none
      else if p.1 = "llingr.poll.error.bail.after.ms" then none
      else if p.1 = "llingr.client.log.level" then none else settingOf p) =
      fun p => (pairSets some p).map .client := by
    funext p
    by_cases hadapter : p.1 ∈ adapterOptionKeys
    · have hnone : translator p.1 = none := by
        have hrow : ∀ key ∈ adapterOptionKeys, key ∉ franzOptionKeys.map Prod.fst := by decide
        rw [← Option.not_isSome_iff_eq_none, translator, Assoc.isSome_lookup_iff]
        exact hrow p.1 hadapter
      rw [pairSets, hnone]
      simp only [adapterOptionKeys, List.mem_cons, List.not_mem_nil, or_false] at hadapter
      split_ifs <;> simp_all
    · have hother := hadapter
      simp only [adapterOptionKeys, List.mem_cons, List.not_mem_nil, or_false, not_or] at hother
      rw [if_neg hother.2.2.2, if_neg hother.2.2.1, if_neg hother.2.1, if_neg hother.1,
        settingOf_of_table hadapter]
  rw [hleft] at hbackoffTaken
  have hclient : m.sorted.filterMap (fun p => (pairSets some p).map Setting.client) =
      (r.opts.filterMap KgoOpt.client?).map .client := by
    rw [clientOpts_eq h, List.map_filterMap]
  rw [hclient] at hbackoffTaken
  refine List.Perm.symm ?_
  calc
    m.sorted.filterMap settingOf ~ r.clientLogLevel.toList.map .logLevel ++ _ := hlevelTaken
    _ ~ _ ++ (bail.toList.map .pollError ++ _) := hbailTaken.append_left _
    _ ~ _ ++ (_ ++ (interval.toList.map .pollError ++ _)) :=
      (hintervalTaken.append_left _).append_left _
    _ ~ _ ++ (_ ++ (_ ++ (backoff.toList.map .pollError ++
          (r.opts.filterMap KgoOpt.client?).map .client))) :=
      ((hbackoffTaken.append_left _).append_left _).append_left _
    _ = r.settings := by
      rw [FranzOptions.settings, hpollErrors]
      simp only [List.map_append, List.append_assoc]

/-- Of an accepted map every pair of a client key parses. -/
theorem parsePair_isOk {r : FranzOptions Roots Cert} (h : Consumed env m r) {p : String × String}
    (hget : m.get? p.1 = some p.2) (hkey : p.1 ∈ clientKeys) : ∃ o, parsePair p = .ok o := by
  obtain ⟨bail, interval, backoff, hbail, hinterval, hbackoff, -⟩ := h.pollErrors
  have hpopped : ∀ {α : Type} {key value : String} {parse : String → Except OptionFault α}
      {o : Option α} (setting : α → Setting),
      (key, fun raw => (parse raw).map setting) ∈ adapterParsers →
      (m.get? key).map parse = o.map .ok → m.get? key = some value →
        ∃ o, parsePair (key, value) = .ok o := by
    intro α key value parse o setting hrow hparse hvalue
    rw [hvalue] at hparse
    cases o with
    | none => cases hparse
    | some a =>
        have hok : parse value = .ok a := Option.some_inj.mp hparse
        rw [parsePair_of_adapter hrow, hok]
        exact ⟨_, rfl⟩
  obtain ⟨key, value⟩ := p
  rcases List.mem_append.mp hkey with htable | hadapter
  · have hpair : (key, value) ∈ tablePairs m.sorted :=
      List.mem_filter.mpr ⟨GoMap.mem_sorted.mpr hget, Assoc.isSome_lookup_iff.mpr htable⟩
    obtain ⟨opt, ⟨translate, hlookup, htranslate⟩, -⟩ := h.row (key, value) hpair
    rw [parsePair_of_translator hlookup, htranslate]
    exact ⟨_, rfl⟩
  · simp only [adapterOptionKeys, List.mem_cons, List.not_mem_nil, or_false] at hadapter
    rcases hadapter with rfl | rfl | rfl | rfl
    · exact hpopped .logLevel (by simp [adapterParsers]) h.clientLogLevel hget
    · exact hpopped .pollError (by simp [adapterParsers]) hbail hget
    · exact hpopped .pollError (by simp [adapterParsers]) hinterval hget
    · exact hpopped .pollError (by simp [adapterParsers]) hbackoff hget

variable (hkeys : ∀ key, (m.get? key).isSome → key ∈ clientKeys)

include hkeys

/-- Without security keys there is nothing to build from. -/
theorem securityPairs_eq_nil : securityPairs m.sorted = [] := by
  have hother : ∀ key ∈ clientKeys, key ∉ franzSecurityCollectors.map Prod.fst := by decide
  rw [securityPairs, List.filter_eq_nil_iff]
  intro p hp hcollector
  have hsome : (m.get? p.1).isSome := by rw [GoMap.mem_sorted.mp hp]; rfl
  exact hother p.1 (hkeys p.1 hsome) (Assoc.isSome_lookup_iff.mp hcollector)

/-- Of an accepted map of client keys every option is a client option. -/
theorem client_of_consumed {r : FranzOptions Roots Cert} (h : Consumed env m r) :
    ∀ opt ∈ r.opts, opt.client?.isSome := by
  obtain ⟨s, securityOpts, tableOpts, hsecurity, -, hopts⟩ := h.opts
  have hcollect := hsecurity.collected
  have hbuild := hsecurity.built
  rw [securityPairs_eq_nil hkeys] at hcollect
  obtain rfl := Option.some_inj.mp hcollect
  obtain rfl := Except.ok.inj hbuild
  intro opt hopt
  rw [hopts, List.map_nil, List.append_nil] at hopt
  obtain ⟨o, -, rfl⟩ := List.mem_map.mp hopt
  rfl

/-- A map of client keys is refused for a pair that does not parse. -/
theorem exists_parse_error {e : OptionFault} (h : franzOptions env m = .error e) :
    ∃ p : String × String, m.get? p.1 = some p.2 ∧ parsePair p = .error e := by
  -- a pop that fails
  have hpop : ∀ {α : Type} {m' : GoMap String String} {key : String}
      {parse : String → Except OptionFault α} (setting : α → Setting),
      (key, fun raw => (parse raw).map setting) ∈ adapterParsers →
      (∀ value, m'.get? key = some value → m.get? key = some value) →
      pop m' key parse = .error e →
        ∃ p : String × String, m.get? p.1 = some p.2 ∧ parsePair p = .error e := by
    intro α m' key parse setting hrow hm' herror
    obtain ⟨raw, hraw, hparse⟩ := pop_eq_error herror
    refine ⟨(key, raw), hm' raw hraw, ?_⟩
    rw [parsePair_of_adapter hrow, hparse]
    rfl
  have hleft : ∀ {m m' : GoMap String String} {key : String},
      (∀ k, m'.get? k = if k = key then none else m.get? k) →
        ∀ {k value}, m'.get? k = some value → m.get? k = some value ∧ k ≠ key := by
    intro m m' key hm' k value hvalue
    rw [hm'] at hvalue
    split_ifs at hvalue with hk
    exact ⟨hvalue, hk⟩
  rcases bind_eq_error.mp h with hlevel | ⟨⟨level, m₁⟩, hlevel, h⟩
  · exact hpop .logLevel (by simp [adapterParsers]) (fun _ => id) hlevel
  have hm₁ := (pop_eq_ok hlevel).2
  rcases bind_eq_error.mp h with hpolls | ⟨⟨pollErrors, rest⟩, hpolls, h⟩
  · rcases bind_eq_error.mp hpolls with hbail | ⟨⟨bail, m₂⟩, hbail, hpolls⟩
    · exact hpop .pollError (by simp [adapterParsers])
        (fun _ hvalue => (hleft hm₁ hvalue).1) hbail
    have hm₂ := (pop_eq_ok hbail).2
    rcases bind_eq_error.mp hpolls with hinterval | ⟨⟨interval, m₃⟩, hinterval, hpolls⟩
    · exact hpop .pollError (by simp [adapterParsers])
        (fun _ hvalue => (hleft hm₁ (hleft hm₂ hvalue).1).1) hinterval
    have hm₃ := (pop_eq_ok hinterval).2
    rcases bind_eq_error.mp hpolls with hbackoff | ⟨⟨backoff, m₄⟩, hbackoff, hpolls⟩
    · exact hpop .pollError (by simp [adapterParsers])
        (fun _ hvalue => (hleft hm₁ (hleft hm₂ (hleft hm₃ hvalue).1).1).1) hbackoff
    · cases hpolls
  -- the pops leave keys of the table only
  obtain ⟨-, -, -, -, -, -, -, hrest⟩ := popPollErrorOptions_eq_ok hpolls
  have htable : ∀ p ∈ rest.sorted, m.get? p.1 = some p.2 ∧ p.1 ∈ Stage.table.keys := by
    intro p hp
    have hvalue := GoMap.mem_sorted.mp hp
    rw [hrest] at hvalue
    split_ifs at hvalue with hpoll
    obtain ⟨hget, hlog⟩ := hleft hm₁ hvalue
    refine ⟨hget, (List.mem_append.mp (hkeys p.1 (by rw [hget]; rfl))).resolve_right ?_⟩
    exact fun hadapter => (List.mem_cons.mp hadapter).elim hlog hpoll
  rcases bind_eq_error.mp h with hopts | ⟨opts, -, h⟩
  · rcases franzKgoOpts_eq_error hopts with ⟨p, hp, hrefused⟩ | ⟨s, fault, hs, hbuild, rfl⟩
    · obtain ⟨hget, hmem⟩ := htable p hp
      refine ⟨p, hget, ?_⟩
      cases hrefused with
      | reserved setter hreserved =>
          exact absurd (Assoc.isSome_lookup_iff.mp (by rw [hreserved]; rfl))
            (reserved_not_mem_keys .table p.1 hmem)
      | unsupported hcollector htranslator =>
          rw [← Option.not_isSome_iff_eq_none] at htranslator
          exact absurd (Assoc.isSome_lookup_iff.mpr hmem) htranslator
      | value htranslator he =>
          rw [show p = (p.1, p.2) from rfl, parsePair_of_translator htranslator, he]
          rfl
    · have hleftKeys : ∀ key, (rest.get? key).isSome → key ∈ clientKeys := by
        intro key hkey
        obtain ⟨value, hvalue⟩ := Option.isSome_iff_exists.mp hkey
        exact List.mem_append_left _ (htable (key, value) (GoMap.mem_sorted.mpr hvalue)).2
      rw [securityPairs_eq_nil hleftKeys] at hs
      obtain rfl := Option.some_inj.mp hs
      cases hbuild
  · cases h

end

end LlingrKafka.Options

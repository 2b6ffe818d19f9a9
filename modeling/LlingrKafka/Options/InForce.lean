import LlingrKafka.Options.Translate

/-!
# Settings in force

The client applies its options in order, so of the options that set the same thing the last
one counts (`inForce`).  `inForce_tableOpts` reads the setting in force off the pairs the
options were translated from.
-/

namespace LlingrKafka.Options

open Security

/-- The rebalance timeout an option sets. -/
def ClientOpt.rebalanceTimeout? : ClientOpt → Option ℤ
  | rebalanceTimeout d => some d
  | _ => none

/-- The fetch wait an option sets. -/
def ClientOpt.fetchMaxWait? : ClientOpt → Option ℤ
  | fetchMaxWait d => some d
  | _ => none

/-- The isolation level an option sets. -/
def ClientOpt.isolationLevel? : ClientOpt → Option IsolationLevel
  | fetchIsolationLevel level => some level
  | _ => none

/-- The name of the mechanism an option sets. -/
def KgoOpt.saslName {Roots Cert : Type} : KgoOpt Roots Cert → Option String
  | .security (.sasl m) => some m.name
  | _ => none

/-- The name of the mechanism the options set in the end. -/
def saslInForce {Roots Cert : Type} (opts : List (KgoOpt Roots Cert)) : Option String :=
  (opts.filterMap KgoOpt.saslName).getLast?

section

variable {Roots Cert α : Type} (read : ClientOpt → Option α)

/-- What an option sets. -/
def KgoOpt.sets : KgoOpt Roots Cert → Option α
  | client opt => read opt
  | security _ => none

/-- What the options set in the end. -/
def inForce (opts : List (KgoOpt Roots Cert)) : Option α :=
  (opts.filterMap (KgoOpt.sets read)).getLast?

/-- What a pair of the table sets. -/
def pairSets (p : String × String) : Option α :=
  (translator p.1).bind fun translate => ((translate p.2).toOption.join).bind read

variable {read}

theorem pairSets_of_translates {p : String × String} {opt : Option ClientOpt}
    (h : Translates p opt) : pairSets read p = opt.bind read := by
  obtain ⟨translate, hlookup, htranslate⟩ := h
  rw [pairSets, hlookup, Option.bind_some, htranslate]
  rfl

/-- A pair sets something only through its row, with an option of its key. -/
theorem pairSets_eq_some {p : String × String} {a : α} (h : pairSets read p = some a) :
    ∃ opt : ClientOpt, p.1 ∈ opt.keys ∧ read opt = some a := by
  obtain ⟨translate, hlookup, h⟩ := Option.bind_eq_some_iff.mp h
  obtain ⟨opt, hopt, hread⟩ := Option.bind_eq_some_iff.mp h
  refine ⟨opt, ?_, hread⟩
  cases hresult : translate p.2 with
  | error e =>
      rw [hresult] at hopt
      cases hopt
  | ok o =>
      rw [hresult] at hopt
      obtain rfl : o = some opt := hopt
      exact (rowSpec_of_translator hlookup).option hresult

/-- Pairs of other tables set nothing. -/
theorem filterMap_tablePairs (entries : List (String × String)) :
    (tablePairs entries).filterMap (pairSets read) = entries.filterMap (pairSets read) := by
  rw [tablePairs, List.filterMap_filter]
  congr 1
  funext p
  by_cases hrow : (translator p.1).isSome
  · rw [if_pos hrow]
  · rw [if_neg hrow, pairSets, Option.not_isSome_iff_eq_none.mp hrow, Option.bind_none]

/-- Of the translated options the security options set nothing here, and the others what
their pairs do. -/
theorem inForce_tableOpts {pairs : List (String × String)} {tableOpts : List (Option ClientOpt)}
    (h : List.Forall₂ Translates pairs tableOpts) (securityOpts : List (SecurityOpt Roots Cert)) :
    inForce read (tableOpts.reduceOption.map .client ++ securityOpts.map .security) =
      (pairs.filterMap (pairSets read)).getLast? := by
  have hsecurity : (securityOpts.map KgoOpt.security).filterMap (KgoOpt.sets read) = [] := by
    rw [List.filterMap_map]
    exact List.filterMap_eq_nil_iff.mpr fun _ _ => rfl
  have htable : (tableOpts.reduceOption.map .client : List (KgoOpt Roots Cert)).filterMap
      (KgoOpt.sets read) = pairs.filterMap (pairSets read) := by
    induction h with
    | nil => rfl
    | @cons p opt pairs tableOpts hp _ ih =>
        rw [List.filterMap_cons, pairSets_of_translates hp]
        cases opt with
        | none => exact ih
        | some o =>
            rw [List.reduceOption_cons_of_some, List.map_cons, List.filterMap_cons, ih]
            rfl
  rw [inForce, List.filterMap_append, hsecurity, htable, List.append_nil]

end

section

variable {Roots Cert : Type} {env : SecurityEnv Roots Cert} {s : FranzSecurity}
  {securityOpts : List (SecurityOpt Roots Cert)}

/-- The mechanism in force is the one the security keys name. -/
theorem saslInForce_of_build {pairs : List (String × String)}
    (hcollect : FranzSecurity.zero.collectAll pairs = some s) (h : s.build env = .ok securityOpts)
    (clientOpts : List ClientOpt) :
    saslInForce (clientOpts.map .client ++ securityOpts.map .security) =
      mechanismNamed (given pairs .mechanism) := by
  have hclient : (clientOpts.map KgoOpt.client : List (KgoOpt Roots Cert)).filterMap
      KgoOpt.saslName = [] := by
    rw [List.filterMap_map]
    exact List.filterMap_eq_nil_iff.mpr fun _ _ => rfl
  rw [saslInForce, List.filterMap_append, hclient, List.nil_append, ← collected_field hcollect]
  have hsaw := collectAll_sawKey hcollect
  cases hpairs : pairs.isEmpty with
  | true =>
      rw [hpairs] at hsaw
      obtain rfl := build_nothing hsaw h
      obtain rfl := List.isEmpty_iff.mp hpairs
      rw [collected_field hcollect]
      rfl
  | false =>
      rw [hpairs] at hsaw
      obtain ⟨hnames, hnone⟩ := mechanismNamed_of_build hsaw h
      have hall : ∀ name ∈ (securityOpts.map KgoOpt.security).filterMap KgoOpt.saslName,
          mechanismNamed (s.field .mechanism) = some name := by
        intro name hname
        obtain ⟨opt, hopt, hsets⟩ := List.mem_filterMap.mp hname
        obtain ⟨securityOpt, hmem, rfl⟩ := List.mem_map.mp hopt
        cases securityOpt with
        | dialTLSConfig cfg => cases hsets
        | sasl m =>
            rw [hnames m hmem]
            exact hsets
      cases hlast : ((securityOpts.map KgoOpt.security).filterMap KgoOpt.saslName).getLast? with
      | some name => rw [hall name (List.mem_of_getLast? hlast)]
      | none =>
          rw [hnone]
          intro m hm
          have hmem : m.name ∈ (securityOpts.map KgoOpt.security).filterMap KgoOpt.saslName :=
            List.mem_filterMap.mpr ⟨_, List.mem_map_of_mem hm, rfl⟩
          rw [List.getLast?_eq_none_iff.mp hlast] at hmem
          cases hmem

end

end LlingrKafka.Options

import LlingrKafka.Builder.Structure
import LlingrKafka.Options.NoSilentNoOp

/-!
# Last write wins

The calls keep their order up to the deduplication, which gives each key its last value.
Beyond it the keys are visited sorted, so of two spellings of one setting the one that sorts
later has the last word, whenever it was written.  `lastWriteWins_iff` says for which calls
the last write wins all the same.
-/

namespace LlingrKafka.Builder

open Checks Security LlingrKafka.Options

/-- The fetch wait a value stands for. -/
def fetchWait (key value : String) : Option ℤ := (millisOption key value).toOption

section

variable (durationMsCeil : ℕ → ℕ) (calls : List Call)

/-- The pairs the calls write, in order. -/
def writes : List (String × String) := calls.flatMap (Call.pairs durationMsCeil)

/-- The fetch wait in force is that of the last call that set one, in either spelling; and so
is the mechanism, unless a typed setter chose it. -/
def LastWriteWins {Roots Cert : Type} (r : FranzOptions Roots Cert) : Prop :=
  inForce ClientOpt.fetchMaxWait? r.opts =
    (Assoc.lastOf ["fetch.max.wait.ms", "fetch.wait.max.ms"] (writes durationMsCeil calls)).bind
      (fun p => fetchWait p.1 p.2) ∧
  ((Options.build durationMsCeil calls).sasl = none →
    saslInForce r.opts =
      (Assoc.lastOf ["sasl.mechanism", mechanismAlias] (writes durationMsCeil calls)).bind
        fun p => mechanismNamed p.2)

/-- A fetch wait was given as `fetch.max.wait.ms` after another one as `fetch.wait.max.ms`. -/
def FetchWaitShadowed : Prop :=
  Assoc.Shadowed (writes durationMsCeil calls) "fetch.max.wait.ms" "fetch.wait.max.ms" fetchWait

/-- A mechanism was given as `sasl.mechanism` after another one as `sasl.mechanisms`. -/
def MechanismShadowed : Prop :=
  Assoc.Shadowed (writes durationMsCeil calls) "sasl.mechanism" mechanismAlias
    fun _ => mechanismNamed

end

/-! ## What is in force -/

section

variable {Roots Cert : Type} {env : SecurityEnv Roots Cert} {durationMsCeil : ℕ → ℕ}
  {calls : List Call} {m : GoMap String String} {r : FranzOptions Roots Cert}

theorem pairSets_fetchWait {key : String}
    (hkey : key = "fetch.max.wait.ms" ∨ key = "fetch.wait.max.ms") (value : String) :
    pairSets ClientOpt.fetchMaxWait? (key, value) = fetchWait key value := by
  have hmem : parsed millisOption key (fun d => some (.fetchMaxWait d)) ∈ franzOptionKeys := by
    rcases hkey with rfl | rfl <;> simp [franzOptionKeys]
  have hrow : translator key = some (parsed millisOption key fun d => some (.fetchMaxWait d)).2 :=
    translator_of_mem hmem
  rw [pairSets, hrow, Option.bind_some, fetchWait]
  show (((millisOption key value).map fun d =>
      some (ClientOpt.fetchMaxWait d)).toOption.join).bind ClientOpt.fetchMaxWait? = _
  cases millisOption key value with
  | error e => rfl
  | ok d => rfl

/-- Only the two spellings set the fetch wait. -/
theorem pairSets_fetchWait_of_ne {p : String × String} (h : p.1 ≠ "fetch.max.wait.ms")
    (h' : p.1 ≠ "fetch.wait.max.ms") : pairSets ClientOpt.fetchMaxWait? p = none := by
  cases hsets : pairSets ClientOpt.fetchMaxWait? p with
  | none => rfl
  | some d =>
      obtain ⟨opt, hkey, hread⟩ := pairSets_eq_some hsets
      cases opt with
      | fetchMaxWait d' =>
          simp only [ClientOpt.keys, List.mem_cons, List.not_mem_nil, or_false] at hkey
          exact absurd hkey (not_or.mpr ⟨h, h'⟩)
      | _ => cases hread

/-- A key of the table has a value its row accepts. -/
theorem isSome_fetchWait {key : String}
    (hkey : key = "fetch.max.wait.ms" ∨ key = "fetch.wait.max.ms") (h : Consumed env m r)
    {value : String} (hvalue : m.get? key = some value) : (fetchWait key value).isSome := by
  have hrow : (translator key).isSome := by
    rcases hkey with rfl | rfl <;> exact Assoc.isSome_lookup_iff.mpr (by decide)
  obtain ⟨opt, htranslates, hdefault, hown⟩ :=
    h.row (key, value) (List.mem_filter.mpr ⟨GoMap.mem_sorted.mpr hvalue, hrow⟩)
  have hsets : pairSets ClientOpt.fetchMaxWait? (key, value) = opt.bind ClientOpt.fetchMaxWait? :=
    pairSets_of_translates htranslates
  rw [pairSets_fetchWait hkey] at hsets
  rw [hsets]
  cases opt with
  | none =>
      have hswitch : key ∉ ["allow.auto.create.topics", "check.crcs", "enable.metrics.push"] := by
        rcases hkey with rfl | rfl <;> decide
      exact absurd (hdefault.mp rfl) (not_restatesDefault hswitch value)
  | some o =>
      have hmem := hown o rfl
      cases o <;> simp only [ClientOpt.keys, List.mem_singleton] at hmem <;>
        rcases hkey with rfl | rfl <;> first | rfl | exact absurd hmem (by decide)

/-- The spelling that sorts later is preferred. -/
theorem fetchWait_inForce (h : Consumed env m r) :
    inForce ClientOpt.fetchMaxWait? r.opts =
      (m.get? "fetch.wait.max.ms").elim
        ((m.get? "fetch.max.wait.ms").bind (fetchWait "fetch.max.wait.ms"))
        (fetchWait "fetch.wait.max.ms") := by
  have hlt : "fetch.max.wait.ms" < "fetch.wait.max.ms" := by decide
  rw [h.inForce_eq, GoMap.getLast?_filterMap_sorted m hlt fun p => pairSets_fetchWait_of_ne]
  simp only [pairSets_fetchWait (Or.inl rfl), pairSets_fetchWait (Or.inr rfl)]
  cases hlater : m.get? "fetch.wait.max.ms" with
  | none => rfl
  | some value =>
      obtain ⟨d, hd⟩ := Option.isSome_iff_exists.mp (isSome_fetchWait (.inr rfl) h hlater)
      rw [Option.bind_some, Option.elim_some, hd, Option.some_or]

theorem saslInForce_eq (h : Consumed env m r) :
    saslInForce r.opts =
      (m.get? mechanismAlias).elim ((m.get? "sasl.mechanism").bind mechanismNamed)
        mechanismNamed := by
  obtain ⟨s, securityOpts, tableOpts, hsecurity, -, hopts⟩ := h.opts
  rw [hopts, saslInForce_of_build hsecurity.collected hsecurity.built, given_mechanism]
  have hblank : mechanismNamed "" = none := by decide
  cases m.get? mechanismAlias with
  | some value => rw [Option.some_or, Option.getD_some, Option.elim_some]
  | none =>
      rw [Option.none_or, Option.elim_none]
      cases m.get? "sasl.mechanism" with
      | some value => rw [Option.getD_some, Option.bind_some]
      | none => rw [Option.getD_none, hblank, Option.bind_none]

/-- A key of no typed security setter arrives with its last write. -/
theorem get?_eq_last_writes (hm : (Options.build durationMsCeil calls).Arrives m) {key : String}
    (hkey : key ∉ (Options.build durationMsCeil calls).securityEntries.map Prod.fst) :
    m.get? key = Assoc.last (writes durationMsCeil calls) key := by
  rw [hm.get?, Options.allEntries, Assoc.last_append, Assoc.last_eq_none_iff.mpr hkey,
    Option.none_or, Options.entries_build, writes]

end

/-- The last write of a setting is in force unless the spelling that sorts earlier was
written last, after another value in the spelling that sorts later. -/
theorem lastWriteWins_iff {Roots Cert : Type} (env : SecurityEnv Roots Cert)
    (durationMsCeil : ℕ → ℕ) (calls : List Call) (m : GoMap String String)
    (hm : (Options.build durationMsCeil calls).Arrives m) (r : FranzOptions Roots Cert)
    (h : franzOptions env m = .ok r) :
    LastWriteWins durationMsCeil calls r ↔
      ¬ FetchWaitShadowed durationMsCeil calls ∧
        ((Options.build durationMsCeil calls).sasl = none →
          ¬ MechanismShadowed durationMsCeil calls) := by
  have hconsumed := consumed_of_franzOptions h
  have htyped : TypedSecurity (Options.build durationMsCeil calls) := typedSecurity_build calls
  have hfetchKey : ∀ key ∈ ["fetch.max.wait.ms", "fetch.wait.max.ms"],
      m.get? key = Assoc.last (writes durationMsCeil calls) key := by
    have hnot : ∀ key ∈ ["fetch.max.wait.ms", "fetch.wait.max.ms"],
        (collector key).isSome = false := by decide
    intro key hkey
    apply get?_eq_last_writes hm
    intro hmem
    have hsome := collector_of_securityEntry htyped hmem
    rw [hnot key hkey] at hsome
    cases hsome
  have hmechanismKey : (Options.build durationMsCeil calls).sasl = none →
      ∀ key ∈ ["sasl.mechanism", mechanismAlias],
        m.get? key = Assoc.last (writes durationMsCeil calls) key := by
    have hnot : ∀ key ∈ ["sasl.mechanism", mechanismAlias],
        key ∉ "security.protocol" :: tlsKeys := by decide
    intro hsasl key hkey
    apply get?_eq_last_writes hm
    intro hmem
    rcases mem_securityEntries htyped hmem with htls | ⟨sasl, hsome, -⟩
    · exact hnot key hkey htls
    · rw [hsasl] at hsome
      cases hsome
  unfold LastWriteWins FetchWaitShadowed MechanismShadowed
  rw [fetchWait_inForce hconsumed, hfetchKey _ (by simp), hfetchKey _ (by simp),
    ← Assoc.preferred_eq_iff (by decide)]
  refine and_congr Iff.rfl (forall_congr' fun hsasl => ?_)
  rw [saslInForce_eq hconsumed, hmechanismKey hsasl _ (by simp), hmechanismKey hsasl _ (by simp),
    ← Assoc.preferred_eq_iff (by decide)]
  exact Iff.rfl

/-- A fetch wait and a mechanism overridden in the other spelling. -/
def overriddenCalls : List Call :=
  [.kafkaOption "fetch.wait.max.ms" "500", .kafkaOption "fetch.max.wait.ms" "100",
    .kafkaOptions [("security.protocol", "sasl_ssl"), ("sasl.username", "u"),
      ("sasl.password", "p"), ("sasl.mechanisms", "PLAIN")],
    .kafkaOption "sasl.mechanism" "SCRAM-SHA-512"]

/-- The override is accepted, and the values it overrides are in force. -/
theorem lastWrite_discarded :
    (Options.build id overriddenCalls).validate = .ok () ∧
      ∃ r, franzOptions openEnv (Options.build id overriddenCalls).arrivalMap = .ok r ∧
        ¬ LastWriteWins id overriddenCalls r := by
  have hvalues : ((franzOptions openEnv (Options.build id overriddenCalls).arrivalMap).toOption.map
      fun r => (inForce ClientOpt.fetchMaxWait? r.opts, saslInForce r.opts)) =
        some (some 500000000, some "PLAIN") := by
    decide +kernel
  refine ⟨rfl, ?_⟩
  cases hresult : franzOptions openEnv (Options.build id overriddenCalls).arrivalMap with
  | error e =>
      rw [hresult] at hvalues
      cases hvalues
  | ok r =>
      rw [hresult] at hvalues
      obtain ⟨hwait, -⟩ := Prod.mk.inj (Option.some_inj.mp hvalues)
      refine ⟨r, rfl, fun hwins => ?_⟩
      have hlast := hwins.1
      rw [hwait] at hlast
      exact absurd hlast (by decide)

theorem lastWriteWins_iff_overridden :
    ∃ r, franzOptions openEnv (Options.build id overriddenCalls).arrivalMap = .ok r ∧
      (LastWriteWins id overriddenCalls r ↔ ¬ FetchWaitShadowed id overriddenCalls ∧
        ((Options.build id overriddenCalls).sasl = none →
          ¬ MechanismShadowed id overriddenCalls)) := by
  have haccepted : (franzOptions openEnv
      (Options.build id overriddenCalls).arrivalMap).toOption.isSome = true := by
    decide +kernel
  cases hresult : franzOptions openEnv (Options.build id overriddenCalls).arrivalMap with
  | error e =>
      rw [hresult] at haccepted
      cases haccepted
  | ok r =>
      exact ⟨r, rfl, lastWriteWins_iff openEnv id overriddenCalls _
        (Options.arrives_arrivalMap _) r hresult⟩

end LlingrKafka.Builder

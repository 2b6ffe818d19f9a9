import LlingrKafka.Builder.Structure
import LlingrKafka.Config.Accepted
import LlingrKafka.Options.Guard

/-!
# The rebalance timeout of the builders

`rebalance_above_drain`: in every configuration the option stage accepts, the rebalance
timeout in force is above the drain timeout, and so are the durations the Rust builders were
given, although both are rounded up to milliseconds on the way.
-/

namespace LlingrKafka.Builder

open LlingrKafka.Config Security FixedWidth LlingrKafka.Options

section

variable {durationMsCeil : ℕ → ℕ} {before after : List Call} {rebalance : ℕ}

/-- The last rebalance timeout that was set is the value of its key. -/
theorem last_rebalance
    (hafter : ∀ call ∈ after, "rebalance.timeout.ms" ∉ (call.pairs durationMsCeil).map Prod.fst) :
    Assoc.last (Options.build durationMsCeil
      (before ++ .client (.rebalanceTimeout rebalance) :: after)).allEntries
        "rebalance.timeout.ms" = some (toString (durationMsCeil rebalance)) := by
  have hsecurity : Assoc.last (Options.build durationMsCeil
      (before ++ .client (.rebalanceTimeout rebalance) :: after)).securityEntries
        "rebalance.timeout.ms" = none := by
    rw [Assoc.last_eq_none_iff]
    intro hmem
    exact absurd (collector_of_securityEntry (typedSecurity_build _) hmem) (by decide)
  rw [Options.allEntries, Assoc.last_append, hsecurity, Option.none_or, Options.entries_build,
    List.flatMap_append, List.flatMap_cons, Assoc.last_eq_some_iff]
  refine ⟨_, after.flatMap (Call.pairs durationMsCeil), rfl, fun hmem => ?_⟩
  obtain ⟨p, hp, hkey⟩ := List.mem_map.mp hmem
  obtain ⟨call, hcall, hp⟩ := List.mem_flatMap.mp hp
  exact hafter call hcall (List.mem_map.mpr ⟨p, hp, hkey⟩)

/-- Milliseconds that fit are read as they were written; zero is not accepted. -/
theorem guardRebalance_toString {ms : ℕ} (hfits : ms * 1000000 < 2 ^ 63) {d : ℤ}
    (h : guardRebalance (some (toString ms)) = some d) : d = ((ms * 1000000 : ℕ) : ℤ) := by
  have hatoi : Text.atoi (toString ms) = some (ms : ℤ) := Text.atoi_toString (by omega)
  rw [guardRebalance, millisOption, hatoi] at h
  simp only at h
  split_ifs at h
  · cases h
  · have hproduct : milliseconds (ms : ℤ) = d := Option.some_inj.mp h
    have hrange : Fits 64 ((ms : ℤ) * 1000000) := by
      constructor
      · omega
      · omega
    rw [← hproduct, milliseconds, wrap_of_fits hrange]
    push_cast
    rfl

end

/-- The rebalance timeout exceeds the drain timeout.  In every configuration the option stage
accepts, the value in force is the one the guard compared, and above the effective drain
timeout.  The guard and the table read every string alike.  So when the last rebalance timeout
and the drain timeout set on the builders fit, acceptance means that the first is longer. -/
theorem rebalance_above_drain {Roots Cert : Type} (config : ConfigEnv)
    (env : SecurityEnv Roots Cert) :
    (∀ (cfg : BridgeConfig) (m : GoMap String String) r,
      (∀ key, m.get? key = cfg.kafkaConfig key) → optionStage config env cfg m = .ok r →
      guardRebalance (cfg.kafkaConfig "rebalance.timeout.ms") = some (clientRebalance r.2.opts) ∧
        effectiveDrain cfg < clientRebalance r.2.opts) ∧
    (∀ raw, guardRebalance (some raw) =
      pairSets ClientOpt.rebalanceTimeout? ("rebalance.timeout.ms", raw)) ∧
    ∀ (durationMsCeil : ℕ → ℕ), CeilsMs durationMsCeil → config.ReadsByName →
      ∀ (before after : List Call) (rebalance drain : ℕ),
      (∀ call ∈ after, "rebalance.timeout.ms" ∉ (call.pairs durationMsCeil).map Prod.fst) →
      MsFits durationMsCeil rebalance → MsFits durationMsCeil drain → 0 < drain →
      ∀ (topic brokers consumerGroup : String) (demux : DemuxConfig)
        (service : Option (String × String)) (statsInterval flushInterval : Option ℕ),
      demux.drainTimeout = some drain →
      ∀ (cfg : BridgeConfig) (m : GoMap String String) r,
      config.parseBridgeConfig (Utf8.encode (configJson durationMsCeil topic
        ((Options.build durationMsCeil (before ++ .client (.rebalanceTimeout rebalance) ::
          after)).brokerConfig brokers consumerGroup)
        demux service statsInterval flushInterval)) = .ok cfg →
      (∀ key, m.get? key = cfg.kafkaConfig key) → optionStage config env cfg m = .ok r →
      drain < rebalance := by
  refine ⟨fun cfg m r hm h => rebalance_exceeds_drain hm h, guardRebalance_eq_pairSets, ?_⟩
  intro durationMsCeil hceil hreads before after rebalance drain hafter hrebalanceFits hdrainFits
    hdrainPos topic brokers consumerGroup demux service statsInterval flushInterval hdrain cfg m r
    hparse hm hstage
  obtain ⟨hkafka, hdemux⟩ := accepted_configJson hreads hparse
  -- both durations arrive, in whole milliseconds
  have hraw : cfg.kafkaConfig "rebalance.timeout.ms" =
      some (toString (durationMsCeil rebalance)) := by
    rw [hkafka, last_dedupedKafkaConfig]
    exact last_rebalance hafter
  have hdrainValue : cfg.demux "drainTimeout" = ((durationMsCeil drain * 1000000 : ℕ) : ℤ) := by
    refine hdemux .drainTimeout (.duration drain) ?_ fun ns hns => ?_
    · show demux.drainTimeout.map Setting.duration = _
      rw [hdrain]
      rfl
    · obtain rfl : drain = ns := by
        cases hns
        rfl
      exact hdrainFits
  obtain ⟨hcompared, hexceeds⟩ := rebalance_exceeds_drain hm hstage
  rw [hraw] at hcompared
  rw [guardRebalance_toString hrebalanceFits hcompared, effectiveDrain, hdrainValue] at hexceeds
  have hrebalanceCeil := hceil rebalance
  have hdrainCeil := hceil drain
  unfold RoundedUp at hrebalanceCeil hdrainCeil
  rw [if_neg (by omega)] at hexceeds
  omega

/-- A rebalance timeout just above the drain timeout, and an option set behind it. -/
def aboveDrainCalls : List Call :=
  [] ++ .client (.rebalanceTimeout 45000000000) :: [.kafkaOption "client.id" "c"]

def aboveDrainDemux : DemuxConfig := { ordersDemux with drainTimeout := some 44998000001 }

theorem msFits_aboveDrain {tag : DemuxTag} {ns : ℕ}
    (h : aboveDrainDemux.setting tag = some (.duration ns)) : MsFits msCeil ns := by
  cases tag <;> simp [DemuxConfig.setting, aboveDrainDemux, ordersDemux] at h
  all_goals
    subst h
    unfold MsFits
    decide

theorem rebalance_above_drain_accepted :
    (∃ cfg r, byNameEnv.parseBridgeConfig (Utf8.encode (configJson msCeil "orders"
        ((Options.build msCeil aboveDrainCalls).brokerConfig "b:9092" "grp") aboveDrainDemux none
        none none)) = .ok cfg ∧
      optionStage byNameEnv openEnv cfg (Options.build msCeil aboveDrainCalls).arrivalMap = .ok r ∧
      effectiveDrain cfg < clientRebalance r.2.opts) ∧ 44998000001 < 45000000000 := by
  obtain ⟨hstages, -, hbuilders⟩ := rebalance_above_drain byNameEnv openEnv
  obtain ⟨cfg, hcarries, hparse⟩ := parseBridgeConfig_configJson "orders"
    ((Options.build msCeil aboveDrainCalls).brokerConfig "b:9092" "grp") none none none
    ceilsMs_msCeil decodesByName_byNameEnv (fun keys => .refl keys)
    (fun _ _ => msFits_aboveDrain)
  rw [if_neg (by decide)] at hparse
  obtain ⟨hkafka, hdemux⟩ := accepted_configJson readsByName_byNameEnv hparse
  have hm : ∀ key, (Options.build msCeil aboveDrainCalls).arrivalMap.get? key =
      cfg.kafkaConfig key := fun key => (congrFun hkafka key).symm
  obtain ⟨r, hstage⟩ : ∃ r, optionStage byNameEnv openEnv cfg
      (Options.build msCeil aboveDrainCalls).arrivalMap = .ok r := by
    have hsetting : aboveDrainDemux.setting .drainTimeout = some (.duration 44998000001) := rfl
    -- the drain timeout arrives rounded up to whole milliseconds
    have hdrain : effectiveDrain cfg = 44999000000 := by
      have hvalue : cfg.demux "drainTimeout" = ((msCeil 44998000001 * 1000000 : ℕ) : ℤ) :=
        hdemux .drainTimeout _ hsetting fun ns hns => msFits_aboveDrain (hns ▸ hsetting)
      rw [effectiveDrain, hvalue]
      decide
    have hguard : checkRebalanceAboveDrain cfg = .ok () := by
      have hraw : cfg.kafkaConfig "rebalance.timeout.ms" = some "45000" := by
        rw [hkafka]
        rfl
      have hcompared : guardRebalance (some "45000") = some 45000000000 := by decide
      rw [checkRebalanceAboveDrain, hraw, hcompared, hdrain]
      exact Checks.reject_eq_ok.mpr (by decide)
    have hbandwidth : cfg.bandwidth = none := hcarries.bandwidth_text
    have haccepted : (franzOptions openEnv
        (Options.build msCeil aboveDrainCalls).arrivalMap).toOption.isSome = true := by
      decide +kernel
    cases hoptions : franzOptions openEnv (Options.build msCeil aboveDrainCalls).arrivalMap with
    | error e =>
        rw [hoptions] at haccepted
        cases haccepted
    | ok options =>
        refine ⟨(⟨0, 0⟩, { options with opts := bridgeOpts options.opts }), ?_⟩
        rw [optionStage, hguard, hbandwidth, hoptions]
        rfl
  refine ⟨⟨cfg, r, hparse, hstage, (hstages cfg _ r hm hstage).2⟩, ?_⟩
  exact hbuilders msCeil ceilsMs_msCeil readsByName_byNameEnv []
    [.kafkaOption "client.id" "c"] 45000000000 44998000001 (by decide) (by unfold MsFits; decide)
    (by unfold MsFits; decide) (by decide) "orders" "b:9092" "grp" aboveDrainDemux none none none
    rfl cfg _ r hparse hm hstage

end LlingrKafka.Builder

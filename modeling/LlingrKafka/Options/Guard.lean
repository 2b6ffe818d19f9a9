import LlingrKafka.Config.Decode
import LlingrKafka.Options.NoSilentNoOp

/-!
# The rebalance timeout above the drain timeout

`checkRebalanceAboveDrain` (`bridge/adapter_franz.go`) compares the timeouts before the
option table translates them, and leaves a value that does not parse to the table.  Both
read the value with the same parser, so what is in force is what was compared
(`rebalance_exceeds_drain`).
-/

namespace LlingrKafka.Options

open Bridge Checks LlingrKafka.Config Security

def kgoDefaultRebalanceTimeout : ℤ := 60000000000
def engineDefaultDrainTimeout : ℤ := 20000000000

/-- The drain timeout of the engine: one that is not positive means its default. -/
def effectiveDrain (cfg : BridgeConfig) : ℤ :=
  if cfg.demux "drainTimeout" ≤ 0 then engineDefaultDrainTimeout
  else cfg.demux "drainTimeout"

/-- The rebalance timeout that is compared; none for a value that is left to the table. -/
def guardRebalance : Option String → Option ℤ
  | none => some kgoDefaultRebalanceTimeout
  | some raw => (millisOption "rebalance.timeout.ms" raw).toOption

/-- `checkRebalanceAboveDrain`. -/
def checkRebalanceAboveDrain (cfg : BridgeConfig) : Except OptionFault Unit :=
  match guardRebalance (cfg.kafkaConfig "rebalance.timeout.ms") with
  | none => .ok ()
  | some rebalance =>
      reject (rebalance ≤ effectiveDrain cfg)
        (.rebalanceBelowDrain rebalance (effectiveDrain cfg))

section

variable {Roots Cert : Type} (config : ConfigEnv) (env : SecurityEnv Roots Cert)

/-- The option stage of `buildFranzConsumer`; `m` is the map `cfg.KafkaConfig`. -/
def optionStage (cfg : BridgeConfig) (m : GoMap String String) :
    Except BridgeError (ParsedBandwidth × FranzOptions Roots Cert) := do
  (checkRebalanceAboveDrain cfg).mapError (OptionFault.toBridgeError config.quote)
  let bw ← config.parseBandwidth cfg.bandwidth
  let r ← (franzOptions env m).mapError (OptionFault.toBridgeError config.quote)
  .ok (bw, { r with opts := bridgeOpts r.opts })

/-- The rebalance timeout of a client with these options. -/
def clientRebalance (opts : List (KgoOpt Roots Cert)) : ℤ :=
  (inForce ClientOpt.rebalanceTimeout? opts).getD kgoDefaultRebalanceTimeout

end

/-- Only one key sets the rebalance timeout. -/
theorem pairSets_rebalance_of_ne {p : String × String} (h : p.1 ≠ "rebalance.timeout.ms") :
    pairSets ClientOpt.rebalanceTimeout? p = none := by
  cases hsets : pairSets ClientOpt.rebalanceTimeout? p with
  | none => rfl
  | some d =>
      obtain ⟨opt, hkey, hread⟩ := pairSets_eq_some hsets
      cases opt with
      | rebalanceTimeout d' => exact absurd (List.mem_singleton.mp hkey) h
      | _ => cases hread

theorem translator_rebalance : translator "rebalance.timeout.ms" =
    some (parsed millisOption "rebalance.timeout.ms" fun d => some (.rebalanceTimeout d)).2 := by
  have hmem : parsed millisOption "rebalance.timeout.ms" (fun d => some (.rebalanceTimeout d)) ∈
      franzOptionKeys := by simp [franzOptionKeys]
  exact translator_of_mem hmem

/-- A value the table accepts was compared. -/
theorem guardRebalance_of_translates {raw : String} {opt : Option ClientOpt}
    (h : Translates ("rebalance.timeout.ms", raw) opt) : guardRebalance (some raw) ≠ none := by
  obtain ⟨translate, hrow, htranslate⟩ := h
  obtain rfl := Option.some_inj.mp (hrow.symm.trans translator_rebalance)
  obtain ⟨d, hparse, -⟩ := parsed_eq_ok.mp htranslate
  rw [guardRebalance, hparse]
  exact Option.some_ne_none d

/-- The table reads a value as the guard does. -/
theorem guardRebalance_eq_pairSets (raw : String) :
    guardRebalance (some raw) =
      pairSets ClientOpt.rebalanceTimeout? ("rebalance.timeout.ms", raw) := by
  rw [pairSets, translator_rebalance, Option.bind_some, guardRebalance]
  show (millisOption "rebalance.timeout.ms" raw).toOption =
    (((millisOption "rebalance.timeout.ms" raw).map fun d =>
      some (ClientOpt.rebalanceTimeout d)).toOption.join).bind ClientOpt.rebalanceTimeout?
  cases millisOption "rebalance.timeout.ms" raw with
  | error e => rfl
  | ok d => rfl

section

variable {Roots Cert : Type} {config : ConfigEnv} {env : SecurityEnv Roots Cert}
  {cfg : BridgeConfig} {m : GoMap String String}

/-- The isolation level the bridge puts first sets nothing else. -/
theorem inForce_bridgeOpts {α : Type} {read : ClientOpt → Option α}
    (hread : read (.fetchIsolationLevel .readCommitted) = none) (opts : List (KgoOpt Roots Cert)) :
    inForce read (bridgeOpts opts) = inForce read opts := by
  have hfirst : KgoOpt.sets read
      (KgoOpt.client (.fetchIsolationLevel .readCommitted) : KgoOpt Roots Cert) = none := hread
  rw [inForce, bridgeOpts, List.filterMap_cons_none hfirst, inForce]

theorem optionStage_eq_ok {r : ParsedBandwidth × FranzOptions Roots Cert}
    (h : optionStage config env cfg m = .ok r) :
    checkRebalanceAboveDrain cfg = .ok () ∧
      ∃ r', franzOptions env m = .ok r' ∧ r.2.opts = bridgeOpts r'.opts := by
  obtain ⟨_, hguard, h⟩ := bind_eq_ok.mp h
  obtain ⟨bw, -, h⟩ := bind_eq_ok.mp h
  obtain ⟨r', hr', h⟩ := bind_eq_ok.mp h
  obtain rfl := Except.ok.inj h
  exact ⟨mapError_eq_ok.mp hguard, r', mapError_eq_ok.mp hr', rfl⟩

/-- Of an accepted configuration the value in force is the one that was compared, and it is
above the drain timeout. -/
theorem rebalance_exceeds_drain (hm : ∀ key, m.get? key = cfg.kafkaConfig key)
    {r : ParsedBandwidth × FranzOptions Roots Cert} (h : optionStage config env cfg m = .ok r) :
    guardRebalance (cfg.kafkaConfig "rebalance.timeout.ms") = some (clientRebalance r.2.opts) ∧
      effectiveDrain cfg < clientRebalance r.2.opts := by
  obtain ⟨hguard, r', hr', hopts⟩ := optionStage_eq_ok h
  have hinForce : inForce ClientOpt.rebalanceTimeout? r.2.opts =
      (cfg.kafkaConfig "rebalance.timeout.ms").bind fun raw => guardRebalance (some raw) := by
    rw [hopts, inForce_bridgeOpts rfl, (consumed_of_franzOptions hr').inForce_eq,
      GoMap.getLast?_filterMap_sorted_of_key m fun p => pairSets_rebalance_of_ne, hm]
    simp only [guardRebalance_eq_pairSets]
  have hcompared : guardRebalance (cfg.kafkaConfig "rebalance.timeout.ms") =
      some (clientRebalance r.2.opts) := by
    rw [clientRebalance, hinForce]
    cases hraw : cfg.kafkaConfig "rebalance.timeout.ms" with
    | none => rfl
    | some raw =>
        rw [Option.bind_some]
        cases hvalue : guardRebalance (some raw) with
        | some d => rfl
        | none =>
            -- a value that does not parse is refused by its row
            have hkey : m.get? "rebalance.timeout.ms" = some raw := by rw [hm, hraw]
            have hrow : (translator "rebalance.timeout.ms").isSome := by
              rw [translator_rebalance]
              rfl
            have hpair : ("rebalance.timeout.ms", raw) ∈ tablePairs m.sorted :=
              List.mem_filter.mpr ⟨GoMap.mem_sorted.mpr hkey, hrow⟩
            obtain ⟨opt, htranslates, -, -⟩ := (consumed_of_franzOptions hr').row _ hpair
            exact absurd hvalue (guardRebalance_of_translates htranslates)
  refine ⟨hcompared, ?_⟩
  rw [checkRebalanceAboveDrain, hcompared] at hguard
  exact not_le.mp (reject_eq_ok.mp hguard)

end

end LlingrKafka.Options

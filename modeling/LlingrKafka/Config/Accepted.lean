import LlingrKafka.Config.RoundTrip

/-!
# What an accepted document carries

The round trip says what is read when every duration fits.  Here a document was accepted:
then the options are those that were configured, and every setting that fits was read under
its tag, whatever the engine makes of the others (`accepted_configJson`).
-/

namespace LlingrKafka.Config

open Json JsonDecode

/-- A `config.DemuxConfig` that decodes an object has read its readable members by name. -/
def ConfigEnv.ReadsByName (env : ConfigEnv) : Prop :=
  ∀ (members : List (DemuxTag × Json)) (old new : DemuxValues),
    (members.map Prod.fst).Nodup →
    env.unmarshalDemux (.obj (members.map fun m => (m.1.name, m.2))) old = .ok new →
    ∀ (tag : DemuxTag) (value : ℤ),
      (Assoc.last members tag).bind (env.readSetting tag) = some value → new tag.name = value

variable {durationMsCeil : ℕ → ℕ} {env : ConfigEnv} {topic : String} {broker : BrokerConfig}
  {demux : DemuxConfig} {service : Option (String × String)}
  {statsInterval flushInterval : Option ℕ}

/-- Settings the engine refuses end the decoding. -/
theorem decodeConfig_eq_error {e : String} (hne : demuxMembers durationMsCeil demux ≠ [])
    (h : env.unmarshalDemux (objValue (demuxMembers durationMsCeil demux)) (fun _ => 0) =
      .error e) :
    env.decodeConfig
      (docValue durationMsCeil topic broker demux service statsInterval flushInterval) .zero =
        .error e := by
  have hfield : optField .demux (demuxMembers durationMsCeil demux) =
      [(.demux, objValue (demuxMembers durationMsCeil demux))] := by
    rw [optField, if_neg (by simpa using hne)]
  have hstore : env.storeConfig .demux (objValue (demuxMembers durationMsCeil demux))
      (configBeforeDemux topic broker service) = .error e := by
    show ((env.unmarshalDemux _ (fun _ => 0)).map _).map _ = _
    rw [h]
    rfl
  rw [docValue_eq, docFields_eq, hfield]
  exact structDecoder_eq_error env.unknownField _ ConfigField.tag_injective ConfigField.mem_all
    stores_beforeDemux hstore

/-- An accepted document holds the options, and each setting that fits. -/
theorem accepted_configJson (hreads : env.ReadsByName) {cfg : BridgeConfig}
    (h : env.parseBridgeConfig (Utf8.encode
      (configJson durationMsCeil topic broker demux service statsInterval flushInterval)) =
        .ok cfg) :
    cfg.kafkaConfig = Assoc.last broker.dedupedKafkaConfig ∧
      ∀ (tag : DemuxTag) (setting : Setting), demux.setting tag = some setting →
        (∀ ns, setting = .duration ns → MsFits durationMsCeil ns) →
        cfg.demux tag.name = setting.goValue durationMsCeil := by
  have hparse := parseFirst_of_parses (parses_configJson durationMsCeil topic broker demux service
    statsInterval flushInterval 9998)
  rw [ConfigEnv.parseBridgeConfig, Utf8.decodeRunes_encode,
    show maxNestingDepth = 9998 + 2 from rfl, hparse] at h
  simp only at h
  -- the decode succeeded, so the engine accepted its settings
  obtain ⟨new, hnew, hunset⟩ : ∃ new : DemuxValues,
      (demuxMembers durationMsCeil demux ≠ [] →
        env.unmarshalDemux (objValue (demuxMembers durationMsCeil demux)) (fun _ => 0) = .ok new) ∧
      (demuxMembers durationMsCeil demux = [] → new = fun _ => 0) := by
    by_cases hnil : demuxMembers durationMsCeil demux = []
    · exact ⟨fun _ => 0, fun hne => absurd hnil hne, fun _ => rfl⟩
    · cases hresult : env.unmarshalDemux (objValue (demuxMembers durationMsCeil demux))
          (fun _ => 0) with
      | error e =>
          rw [decodeConfig_eq_error hnil hresult] at h
          cases h
      | ok new => exact ⟨new, fun _ => rfl, fun hempty => absurd hempty hnil⟩
  have hstores : Stores env.decodeConfig
      (docValue durationMsCeil topic broker demux service statsInterval flushInterval) .zero
      (decodedConfig durationMsCeil topic broker service statsInterval flushInterval new) := by
    refine stores_docValue (fun hne => ?_) hunset
    rw [Stores, ConfigEnv.decodeDemux, hnew hne]
    rfl
  rw [hstores] at h
  simp only at h
  split at h
  · cases h
  · split_ifs at h
    obtain rfl := Except.ok.inj h
    refine ⟨rfl, fun tag setting hsetting hfits => ?_⟩
    have hnodup : DemuxTag.all.Nodup := DemuxTag.nodup_names.of_map DemuxTag.name
    have hne : demuxMembers durationMsCeil demux ≠ [] := by
      intro hnil
      rw [setting_of_demuxMembers_nil hnil tag] at hsetting
      cases hsetting
    have haccepted := hnew hne
    rw [objValue, demuxMembers_eq] at haccepted
    refine hreads _ _ _ ((keys_demuxPairs durationMsCeil demux DemuxTag.all).nodup hnodup)
      haccepted tag _ ?_
    rw [last_demuxPairs durationMsCeil demux hnodup (DemuxTag.mem_all tag), hsetting,
      Option.map_some, Option.bind_some]
    exact readSetting_value env hsetting hfits

theorem readsByName_byNameEnv : byNameEnv.ReadsByName := by
  intro members old new _ h tag value hvalue
  have hread : unmarshalByName (.obj (members.map fun m => (m.1.name, m.2))) old = .ok new := h
  rw [unmarshalByName] at hread
  split_ifs at hread
  obtain rfl := Except.ok.inj hread
  rw [memberValue, tagNamed_name, Assoc.last_map_key DemuxTag.name_injective]
  show ((Assoc.last members tag).bind (byNameEnv.readSetting tag)).getD _ = _
  rw [hvalue, Option.getD_some]

end LlingrKafka.Config

import LlingrKafka.Config.RoundTrip
import Mathlib.Data.Fintype.EquivFin

/-!
# The keys of the demux object

The strict decode stores every member whose name is `demux` up to case into the same
configuration, one over the other; `validateDemuxKeys` looks at the last member that is
spelled exactly so.  What other spellings and earlier repetitions hold is decoded and never
checked (`Unchecked`).

`demux_keys_known_iff` says what that leaves of the promise that a mistyped setting is an
error: an accepted document keeps it when what is unchecked has no unknown setting, and the
names of a document guarantee it when nothing in it is unchecked.
-/

namespace LlingrKafka.Config

open Bridge Json JsonDecode

/-- The field a member is decoded into. -/
def fieldOf (name : String) : Option ConfigField := fieldFor ConfigField.all ConfigField.tag name

/-- The member names of an object are settings of the engine. -/
def KnownKeys (env : ConfigEnv) (j : Json) : Prop :=
  ∀ settings, j = .obj settings → ∀ setting ∈ settings, setting.1 ∈ env.demuxTags

/-- No object that is decoded into the demux configuration has an unknown member. -/
def SettingsKnown (env : ConfigEnv) (members : List (String × Json)) : Prop :=
  ∀ m ∈ members, fieldOf m.1 = some .demux → KnownKeys env m.2

/-- Of the names of a document, one that is decoded into the demux configuration and not
looked at by the key check, and the names behind it. -/
def UncheckedBefore (name : String) (after : List String) : Prop :=
  fieldOf name = some .demux ∧ (name = "demux" → "demux" ∈ after)

/-- A member the key check does not look at. -/
def Unchecked (members : List (String × Json)) (m : String × Json) : Prop :=
  ∃ before after, members = before ++ m :: after ∧ UncheckedBefore m.1 (after.map Prod.fst)

/-- The names of a document leave nothing unchecked: `demux` is spelled exactly, and there at
most once. -/
def DemuxOnce (names : List String) : Prop :=
  (∀ name ∈ names, fieldOf name = some .demux → name = "demux") ∧ names.count "demux" ≤ 1

/-- Every accepted document of these names has only known settings in what is decoded. -/
def NamesGuarantee (env : ConfigEnv) (names : List String) : Prop :=
  ∀ data cfg members, env.parseBridgeConfig data = .ok cfg →
    Json.parse maxNestingDepth (Utf8.decodeRunes data) = some (.obj members) →
    members.map Prod.fst = names → SettingsKnown env members

/-- A decoder that matches names as `encoding/json` does takes the member for a setting: its
name is a tag, exactly or up to case. -/
def MatchesTag (env : ConfigEnv) (name : String) : Prop :=
  ∃ tag ∈ env.demuxTags, foldName tag = foldName name

instance (env : ConfigEnv) : DecidablePred (MatchesTag env) := fun name =>
  inferInstanceAs (Decidable (∃ tag ∈ env.demuxTags, foldName tag = foldName name))

/-- What is assumed of the engine's decoder: members that are no settings in any spelling are
ignored, and an object may be empty. -/
structure ConfigEnv.IgnoresUnknown (env : ConfigEnv) : Prop where
  ignores : ∀ (settings : List (String × Json)) (old : DemuxValues),
    env.unmarshalDemux (.obj settings) old =
      env.unmarshalDemux (.obj (settings.filter fun s => MatchesTag env s.1)) old
  empty : ∀ old : DemuxValues, ∃ new, env.unmarshalDemux (.obj []) old = .ok new

section

variable {env : ConfigEnv} {data : Utf8.Bytes} {cfg : BridgeConfig}

/-! ## What acceptance says -/

/-- An accepted text has one value; it decodes, passes the key check and has the required
fields. -/
theorem parseBridgeConfig_eq_ok (h : env.parseBridgeConfig data = .ok cfg) :
    ∃ doc rest, parseFirst maxNestingDepth (Utf8.decodeRunes data) = some (doc, rest) ∧
      Stores env.decodeConfig doc .zero cfg ∧ env.validateDemuxKeys data = none ∧
      cfg.topic ≠ "" ∧ cfg.brokers ≠ "" ∧ cfg.consumerGroup ≠ "" := by
  unfold ConfigEnv.parseBridgeConfig at h
  split at h
  · cases h
  rename_i doc rest hparse
  split at h
  · cases h
  · cases h
  rename_i cfg' hdecode
  split at h
  · cases h
  rename_i hvalid
  split_ifs at h with hmissing hadapter
  obtain rfl := Except.ok.inj h
  push Not at hmissing
  exact ⟨doc, rest, hparse, hdecode, hvalid, hmissing.1, hmissing.2.1, hmissing.2.2⟩

/-- What the key check has seen: the whole text is one value, and the last exact member has
only known keys. -/
theorem validateDemuxKeys_eq_none (horder : ∀ keys, (env.mapOrder keys).Perm keys)
    (h : env.validateDemuxKeys data = none) :
    ∃ doc members, Json.parse maxNestingDepth (Utf8.decodeRunes data) = some doc ∧
      env.rawMembers doc = .ok members ∧
      ∀ raw, Assoc.last members "demux" = some raw → KnownKeys env raw := by
  unfold ConfigEnv.validateDemuxKeys at h
  split at h
  · cases h
  rename_i doc hparse
  split at h
  · cases h
  rename_i members hmembers
  refine ⟨doc, members, hparse, hmembers, fun raw hraw settings hsettings setting hmem => ?_⟩
  subst hsettings
  rw [hraw] at h
  simp only [ConfigEnv.rawMembers] at h
  split at h
  · rename_i hfind
    have hkey : setting.1 ∈ env.mapOrder (settings.map Prod.fst).dedup :=
      (horder _).mem_iff.mpr (List.mem_dedup.mpr (List.mem_map_of_mem hmem))
    simpa using List.find?_eq_none.mp hfind _ hkey
  · cases h

/-- An accepted document is an object that decodes, and its last exact member has only known
keys. -/
theorem accepted_document (horder : ∀ keys, (env.mapOrder keys).Perm keys)
    (h : env.parseBridgeConfig data = .ok cfg) :
    ∃ members, Json.parse maxNestingDepth (Utf8.decodeRunes data) = some (.obj members) ∧
      Stores env.decodeConfig (.obj members) .zero cfg ∧
      (∀ raw, Assoc.last members "demux" = some raw → KnownKeys env raw) ∧
      cfg.topic ≠ "" ∧ cfg.brokers ≠ "" ∧ cfg.consumerGroup ≠ "" := by
  obtain ⟨doc, rest, hfirst, hstores, hvalid, htopic, hbrokers, hgroup⟩ :=
    parseBridgeConfig_eq_ok h
  obtain ⟨doc', members, hparse, hmembers, hlast⟩ := validateDemuxKeys_eq_none horder hvalid
  have hsame : doc' = doc := by
    rw [Json.parse, hfirst, Option.bind_some] at hparse
    split_ifs at hparse
    exact (Option.some_inj.mp hparse).symm
  subst hsame
  cases doc' with
  | obj members' =>
      obtain rfl := Except.ok.inj hmembers
      exact ⟨members', hparse, hstores, hlast, htopic, hbrokers, hgroup⟩
  | null =>
      -- a null document leaves the zero configuration
      obtain rfl := (Prod.mk.inj (Except.ok.inj hstores)).1
      exact absurd rfl htopic
  | bool b => cases hmembers
  | num literal => cases hmembers
  | str s => cases hmembers
  | arr items => cases hmembers

/-- The last exact member is the one that is checked; every other one is unchecked. -/
theorem settingsKnown_iff {members : List (String × Json)}
    (hlast : ∀ raw, Assoc.last members "demux" = some raw → KnownKeys env raw) :
    SettingsKnown env members ↔ ∀ m, Unchecked members m → KnownKeys env m.2 := by
  constructor
  · rintro hknown m ⟨before, after, rfl, hfield, -⟩
    exact hknown m (List.mem_append_right _ List.mem_cons_self) hfield
  · intro hunchecked m hm hfield
    obtain ⟨before, after, rfl⟩ := List.append_of_mem hm
    by_cases hchecked : m.1 = "demux" ∧ "demux" ∉ after.map Prod.fst
    · obtain ⟨name, value⟩ := m
      obtain ⟨rfl, hafter⟩ := hchecked
      exact hlast value (Assoc.last_eq_some_iff.mpr ⟨before, after, rfl, hafter⟩)
    · refine hunchecked m ⟨before, after, rfl, hfield, fun hname => ?_⟩
      by_contra hafter
      exact hchecked ⟨hname, hafter⟩

/-! ## Documents with given names -/

theorem not_demuxOnce_iff {names : List String} :
    ¬ DemuxOnce names ↔
      ∃ before name after, names = before ++ name :: after ∧ UncheckedBefore name after := by
  have hdemux : fieldOf "demux" = some .demux := by decide
  constructor
  · intro hnot
    by_cases hspelled : ∀ name ∈ names, fieldOf name = some .demux → name = "demux"
    · have hcount : 1 < names.count "demux" := by
        by_contra hle
        exact hnot ⟨hspelled, not_lt.mp hle⟩
      obtain ⟨before, after, rfl⟩ :=
        List.append_of_mem (List.count_pos_iff.mp (Nat.lt_trans Nat.zero_lt_one hcount))
      by_cases hafter : "demux" ∈ after
      · exact ⟨before, "demux", after, rfl, hdemux, fun _ => hafter⟩
      · -- the other occurrence comes first
        rw [List.count_append, List.count_cons_self, List.count_eq_zero.mpr hafter] at hcount
        obtain ⟨first, mid, rfl⟩ :=
          List.append_of_mem (List.count_pos_iff.mp (show 0 < before.count "demux" by omega))
        exact ⟨first, "demux", mid ++ "demux" :: after, by simp, hdemux, fun _ => by simp⟩
    · push Not at hspelled
      obtain ⟨name, hmem, hfield, hne⟩ := hspelled
      obtain ⟨before, after, rfl⟩ := List.append_of_mem hmem
      exact ⟨before, name, after, rfl, hfield, fun h => absurd h hne⟩
  · rintro ⟨before, name, after, rfl, hfield, hafter⟩ ⟨hspelled, hcount⟩
    have hname := hspelled name (by simp) hfield
    subst hname
    have hpos := List.count_pos_iff.mpr (hafter rfl)
    rw [List.count_append, List.count_cons_self] at hcount
    omega

/-- The text fields an accepted configuration has. -/
def requiredFields : List ConfigField := [.topic, .brokers, .consumerGroup]

/-- The text of such a field. -/
def ConfigField.text (cfg : BridgeConfig) : ConfigField → String
  | topic => cfg.topic
  | brokers => cfg.brokers
  | consumerGroup => cfg.consumerGroup
  | _ => ""

/-- A member of another field leaves a text field as it was. -/
theorem text_of_stores {f g : ConfigField} (hf : f ∈ requiredFields) (hne : g ≠ f) {j : Json}
    {old new : BridgeConfig} (h : Stores (env.storeConfig g) j old new) :
    f.text new = f.text old := by
  have hset : ∀ {τ : Type} {get : BridgeConfig → τ} {set : BridgeConfig → τ → BridgeConfig}
      {inner : Decoder τ}, Stores (fieldDecoder get set inner) j old new →
        ∃ v, new = set old v := by
    intro τ get set inner h
    rw [Stores, fieldDecoder] at h
    cases hinner : inner j (get old) with
    | error e =>
        rw [hinner] at h
        cases h
    | ok r =>
        rw [hinner] at h
        exact ⟨r.1, (Prod.mk.inj (Except.ok.inj h)).1.symm⟩
  simp only [requiredFields, List.mem_cons, List.not_mem_nil, or_false] at hf
  rcases hf with rfl | rfl | rfl <;> cases g <;> simp only [ConfigEnv.storeConfig] at h <;>
    first
      | exact absurd rfl hne
      | (obtain ⟨v, rfl⟩ := hset h; rfl)

/-- A decoded document has fields only, and the required ones among them. -/
theorem fields_of_stores {members : List (String × Json)}
    (h : Stores env.decodeConfig (.obj members) .zero cfg) :
    (∀ name ∈ members.map Prod.fst, (fieldOf name).isSome) ∧
      ∀ f ∈ requiredFields, f.text cfg ≠ "" → ∃ name ∈ members.map Prod.fst,
        fieldOf name = some f := by
  rw [Stores, ConfigEnv.decodeConfig, structDecoder_obj] at h
  have hmembers := stores_of_decodeMembers h
  refine ⟨fun name hname => ?_, fun f hf htext => ?_⟩
  · obtain ⟨m, hm, rfl⟩ := List.mem_map.mp hname
    obtain ⟨old, new, hstores⟩ := hmembers.exists_stores hm
    exact isSome_of_stores_structStore hstores
  · by_contra hnone
    push Not at hnone
    apply htext
    have hzero : f.text BridgeConfig.zero = "" := by cases f <;> rfl
    rw [← hzero]
    refine @StoresMembers.frame _ _ _ _ (fun c : BridgeConfig => f.text c) _ _ _ hmembers
      fun m hm old new hstores => ?_
    obtain ⟨g, hfield⟩ := Option.isSome_iff_exists.mp (isSome_of_stores_structStore hstores)
    rw [structStore_of_field hfield] at hstores
    refine text_of_stores hf ?_ hstores
    rintro rfl
    exact hnone m.1 (List.mem_map_of_mem hm) hfield

/-! ## An accepted document of given names -/

/-- A harmless member of a name: what is required is set, and every object empty. -/
def sampleMember (name : String) : Member :=
  match fieldOf name with
  | some .adapter => strMember name ""
  | some .topic | some .brokers | some .consumerGroup => strMember name "x"
  | _ => objMember name []

/-- Nothing that was accepted before is lost. -/
structure Keeps (old new : BridgeConfig) : Prop where
  text : ∀ f ∈ requiredFields, f.text old ≠ "" → f.text new ≠ ""
  adapter : old.adapter = "" → new.adapter = ""

/-- A value can be stored into a field without losing anything, and sets a required text. -/
def Harmless (env : ConfigEnv) (f : ConfigField) (j : Json) : Prop :=
  ∀ old, ∃ new, Stores (env.storeConfig f) j old new ∧ Keeps old new ∧
    (f ∈ requiredFields → f.text new ≠ "")

/-- Storing a text that is not empty into a required field. -/
theorem harmless_text {f : ConfigField} (hf : f ∈ requiredFields) : Harmless env f (.str "x") := by
  have hx : "x" ≠ "" := by decide
  intro old
  simp only [requiredFields, List.mem_cons, List.not_mem_nil, or_false] at hf
  rcases hf with rfl | rfl | rfl
  · refine ⟨{ old with topic := "x" }, rfl, ⟨fun f hf hne => ?_, id⟩, fun _ => hx⟩
    cases f with
    | topic => exact hx
    | _ => exact hne
  · refine ⟨{ old with brokers := "x" }, rfl, ⟨fun f hf hne => ?_, id⟩, fun _ => hx⟩
    cases f with
    | brokers => exact hx
    | _ => exact hne
  · refine ⟨{ old with consumerGroup := "x" }, rfl, ⟨fun f hf hne => ?_, id⟩, fun _ => hx⟩
    cases f with
    | consumerGroup => exact hx
    | _ => exact hne

/-- Storing into another field, which leaves the required texts as they are. -/
theorem harmless_of_frame {f : ConfigField} {j : Json} (hf : f ∉ requiredFields)
    (h : ∀ old, ∃ new, Stores (env.storeConfig f) j old new ∧
      (∀ g : ConfigField, g.text new = g.text old) ∧ (old.adapter = "" → new.adapter = "")) :
    Harmless env f j := by
  intro old
  obtain ⟨new, hstores, htext, hadapter⟩ := h old
  refine ⟨new, hstores, ⟨fun g _ hne => ?_, hadapter⟩, fun hmem => absurd hmem hf⟩
  rw [htext g]
  exact hne

theorem harmless_adapter : Harmless env .adapter (.str "") := by
  refine harmless_of_frame (by decide) fun old => ?_
  exact ⟨{ old with adapter := "" }, rfl, fun g => by cases g <;> rfl, fun _ => rfl⟩

/-- Settings the engine does not know are ignored. -/
theorem harmless_demux (hdecoder : env.IgnoresUnknown) {settings : List (String × Json)}
    (hunknown : ∀ s ∈ settings, ¬ MatchesTag env s.1) : Harmless env .demux (.obj settings) := by
  refine harmless_of_frame (by decide) fun old => ?_
  obtain ⟨new, hnew⟩ := hdecoder.empty old.demux
  have hfilter : (settings.filter fun s => decide (MatchesTag env s.1)) = [] := by
    rw [List.filter_eq_nil_iff]
    intro s hs
    simpa using hunknown s hs
  rw [← hfilter, ← hdecoder.ignores] at hnew
  refine ⟨{ old with demux := new }, ?_, fun g => by cases g <;> rfl, id⟩
  show ((env.unmarshalDemux _ _).map _).map _ = _
  rw [hnew]
  rfl

theorem harmless_sample (hdecoder : env.IgnoresUnknown) {name : String} {f : ConfigField}
    (hname : fieldOf name = some f) : Harmless env f (sampleMember name).value := by
  rw [sampleMember, hname]
  cases f with
  | adapter => exact harmless_adapter
  | topic | brokers | consumerGroup => exact harmless_text (by decide)
  | demux => exact harmless_demux hdecoder fun s hs => by cases hs
  | kafkaConfig => exact harmless_of_frame (by decide) fun old => ⟨old, rfl, fun _ => rfl, id⟩
  | service =>
      refine harmless_of_frame (by decide) fun old => ?_
      exact ⟨{ old with service := some (old.service.getD ⟨"", ""⟩) }, rfl,
        fun g => by cases g <;> rfl, id⟩
  | bandwidth =>
      refine harmless_of_frame (by decide) fun old => ?_
      exact ⟨{ old with bandwidth := some (old.bandwidth.getD ⟨"", ""⟩) }, rfl,
        fun g => by cases g <;> rfl, id⟩

/-- Harmless members decode to a configuration that has every required text they name. -/
theorem exists_stores_of_harmless {members : List (String × Json)}
    (h : ∀ m ∈ members, ∃ f, fieldOf m.1 = some f ∧ Harmless env f m.2) (old : BridgeConfig) :
    ∃ new, Stores env.decodeConfig (.obj members) old new ∧ Keeps old new ∧
      ∀ f ∈ requiredFields, (∃ name ∈ members.map Prod.fst, fieldOf name = some f) →
        f.text new ≠ "" := by
  have hrun : ∀ old, ∃ new, StoresMembers
      (structStore ConfigField.all ConfigField.tag env.storeConfig env.unknownField)
        members old new ∧ Keeps old new ∧
        ∀ f ∈ requiredFields, (∃ name ∈ members.map Prod.fst, fieldOf name = some f) →
          f.text new ≠ "" := by
    clear old
    induction members with
    | nil =>
        intro old
        exact ⟨old, .nil old, ⟨fun _ _ => id, id⟩, fun f _ hname => by simp at hname⟩
    | cons m members ih =>
        intro old
        obtain ⟨g, hfield, hharmless⟩ := h m List.mem_cons_self
        obtain ⟨mid, hstores, hkeeps, hset⟩ := hharmless old
        obtain ⟨new, hrest, hkeepsRest, hrestSet⟩ :=
          ih (fun m hm => h m (List.mem_cons_of_mem _ hm)) mid
        rw [← structStore_of_field hfield env.storeConfig env.unknownField] at hstores
        refine ⟨new, .cons hstores hrest,
          ⟨fun f hf hne => hkeepsRest.text f hf (hkeeps.text f hf hne),
            fun hadapter => hkeepsRest.adapter (hkeeps.adapter hadapter)⟩, fun f hf hname => ?_⟩
        obtain ⟨name, hmem, hname⟩ := hname
        rcases List.mem_cons.mp hmem with rfl | hmem
        · obtain rfl := Option.some_inj.mp (hfield.symm.trans hname)
          exact hkeepsRest.text g hf (hset hf)
        · exact hrestSet f hf ⟨name, hmem, hname⟩
  obtain ⟨new, hstores, hkeeps, hset⟩ := hrun old
  refine ⟨new, ?_, hkeeps, hset⟩
  rw [Stores, ConfigEnv.decodeConfig, structDecoder_obj]
  exact decodeMembers_of_stores hstores

/-- A text of harmless members is accepted, if the last exact member is an empty object. -/
theorem accepts_of_harmless {ms : List Member}
    (hparses : ∀ m ∈ ms, Parses 9999 m.text m.value)
    (hharmless : ∀ m ∈ ms, ∃ f, fieldOf m.name = some f ∧ Harmless env f m.value)
    (hrequired : ∀ f ∈ requiredFields, ∃ name ∈ ms.map Member.name, fieldOf name = some f)
    (hlast : ∀ raw, Assoc.last (ms.map fun m => (m.name, m.value)) "demux" = some raw →
      raw = .obj []) (horder : ∀ keys, (env.mapOrder keys).Perm keys) :
    ∃ data cfg, env.parseBridgeConfig data = .ok cfg ∧
      Json.parse maxNestingDepth (Utf8.decodeRunes data) =
        some (.obj (ms.map fun m => (m.name, m.value))) := by
  have hdoc : Parses maxNestingDepth (objText ms) (objValue ms) := parses_obj 9999 ms hparses
  have hchars : Utf8.decodeRunes (Utf8.encode (String.ofList (objText ms))) = objText ms := by
    rw [Utf8.decodeRunes_encode, String.toList_ofList]
  obtain ⟨cfg, hstores, hkeeps, htext⟩ := @exists_stores_of_harmless env
    (ms.map fun m => (m.name, m.value)) (by simpa using hharmless) .zero
  have hset : ∀ f ∈ requiredFields, f.text cfg ≠ "" := by
    intro f hf
    apply htext f hf
    obtain ⟨name, hname, hfield⟩ := hrequired f hf
    exact ⟨name, by simpa using hname, hfield⟩
  have hvalid : env.validateDemuxKeys (Utf8.encode (String.ofList (objText ms))) = none := by
    rw [ConfigEnv.validateDemuxKeys, hchars, parse_of_parses hdoc]
    simp only [objValue, ConfigEnv.rawMembers]
    cases hraw : Assoc.last (ms.map fun m => (m.name, m.value)) "demux" with
    | none => rfl
    | some raw =>
        obtain rfl := hlast raw hraw
        have hnil : env.mapOrder [] = [] := (horder []).eq_nil
        simp only [List.map_nil, List.dedup_nil, hnil, List.find?_nil]
  refine ⟨Utf8.encode (String.ofList (objText ms)), cfg, ?_, ?_⟩
  · have hmissing : ¬ (cfg.topic = "" ∨ cfg.brokers = "" ∨ cfg.consumerGroup = "") := by
      rintro (h | h | h)
      · exact hset .topic (by decide) h
      · exact hset .brokers (by decide) h
      · exact hset .consumerGroup (by decide) h
    have hdecode : env.decodeConfig (objValue ms) .zero = .ok (cfg, none) := hstores
    rw [ConfigEnv.parseBridgeConfig, hchars, parseFirst_of_parses hdoc]
    simp only
    rw [hdecode]
    simp only
    rw [hvalid]
    simp only
    rw [if_neg hmissing, if_pos (.inl (hkeeps.adapter rfl))]
  · rw [hchars, parse_of_parses hdoc]
    rfl

theorem name_sampleMember (name : String) : (sampleMember name).name = name := by
  unfold sampleMember
  split <;> rfl

theorem parses_sampleMember (name : String) :
    Parses 9999 (sampleMember name).text (sampleMember name).value := by
  have hempty : Parses 9999 (objText []) (objValue []) := parses_obj 9998 [] fun m hm => by cases hm
  unfold sampleMember
  split
  · exact parses_str 9999 ""
  · exact parses_str 9999 "x"
  · exact parses_str 9999 "x"
  · exact parses_str 9999 "x"
  · exact hempty

/-- The exact member of a sample is an empty object. -/
theorem last_sampleMember {names : List String} {raw : Json}
    (h : Assoc.last ((names.map sampleMember).map fun m => (m.name, m.value)) "demux" = some raw) :
    raw = .obj [] := by
  obtain ⟨before, after, heq, -⟩ := Assoc.last_eq_some_iff.mp h
  have hmem : ("demux", raw) ∈ (names.map sampleMember).map fun m => (m.name, m.value) := by
    rw [heq]
    exact List.mem_append_right _ List.mem_cons_self
  obtain ⟨m, hm, heq⟩ := List.mem_map.mp hmem
  obtain ⟨n, -, rfl⟩ := List.mem_map.mp hm
  obtain ⟨hname, rfl⟩ := Prod.mk.inj heq
  rw [name_sampleMember] at hname
  subst hname
  rfl

/-- There is always a name that is no setting's in any spelling: folding keeps the length. -/
theorem exists_not_matchesTag (env : ConfigEnv) : ∃ name, ¬ MatchesTag env name := by
  obtain ⟨n, hn⟩ :=
    Infinite.exists_notMem_finset (env.demuxTags.map fun tag => tag.toList.length).toFinset
  refine ⟨String.ofList (List.replicate n 'x'), ?_⟩
  rintro ⟨tag, htag, hfold⟩
  apply hn
  have hlength := congrArg List.length hfold
  simp only [foldName, List.length_map, String.toList_ofList, List.length_replicate] at hlength
  rw [List.mem_toFinset, ← hlength]
  exact List.mem_map_of_mem htag

/-- Any names that were accepted, with an unknown setting where nothing is checked, are
accepted again. -/
theorem exists_accepted_unknown (hdecoder : env.IgnoresUnknown)
    (horder : ∀ keys, (env.mapOrder keys).Perm keys) {before after : List String} {name : String}
    (hunchecked : UncheckedBefore name after)
    (hfields : ∀ n ∈ before ++ name :: after, (fieldOf n).isSome)
    (hrequired : ∀ f ∈ requiredFields, ∃ n ∈ before ++ name :: after, fieldOf n = some f) :
    ∃ data cfg members, env.parseBridgeConfig data = .ok cfg ∧
      Json.parse maxNestingDepth (Utf8.decodeRunes data) = some (.obj members) ∧
      members.map Prod.fst = before ++ name :: after ∧ ¬ SettingsKnown env members := by
  obtain ⟨unknown, hunknown⟩ := exists_not_matchesTag env
  -- every other member is a sample of its field, so only this one holds a setting
  let bad : Member := objMember name [natMember unknown 0]
  let ms : List Member := before.map sampleMember ++ bad :: after.map sampleMember
  have hnames : ms.map Member.name = before ++ name :: after := by
    simp [ms, bad, objMember, name_sampleMember, Function.comp_def]
  have hsample : ∀ n ∈ before ++ name :: after, ∃ f, fieldOf (sampleMember n).name = some f ∧
      Harmless env f (sampleMember n).value := by
    intro n hn
    obtain ⟨f, hf⟩ := Option.isSome_iff_exists.mp (hfields n hn)
    exact ⟨f, by rw [name_sampleMember, hf], harmless_sample hdecoder hf⟩
  have hmem : ∀ m ∈ ms, (∃ n ∈ before ++ name :: after, m = sampleMember n) ∨ m = bad := by
    intro m hm
    rcases List.mem_append.mp hm with hm | hm
    · obtain ⟨n, hn, rfl⟩ := List.mem_map.mp hm
      exact .inl ⟨n, List.mem_append_left _ hn, rfl⟩
    · rcases List.mem_cons.mp hm with rfl | hm
      · exact .inr rfl
      · obtain ⟨n, hn, rfl⟩ := List.mem_map.mp hm
        exact .inl ⟨n, List.mem_append_right _ (List.mem_cons_of_mem _ hn), rfl⟩
  have hunknownKeys : ∀ s ∈ [(unknown, (natMember unknown 0).value)], ¬ MatchesTag env s.1 := by
    intro s hs
    obtain rfl := List.mem_singleton.mp hs
    exact hunknown
  have hparses : ∀ m ∈ ms, Parses 9999 m.text m.value := by
    intro m hm
    rcases hmem m hm with ⟨n, -, rfl⟩ | rfl
    · exact parses_sampleMember n
    · refine parses_obj 9998 _ fun m hm => ?_
      obtain rfl := List.mem_singleton.mp hm
      exact parses_nat 9998 0
  have hharmless : ∀ m ∈ ms, ∃ f, fieldOf m.name = some f ∧ Harmless env f m.value := by
    intro m hm
    rcases hmem m hm with ⟨n, hn, rfl⟩ | rfl
    · exact hsample n hn
    · exact ⟨.demux, hunchecked.1, harmless_demux hdecoder hunknownKeys⟩
  -- what the check looks at is a sample, so it is empty
  have hlast : ∀ raw, Assoc.last (ms.map fun m => (m.name, m.value)) "demux" = some raw →
      raw = .obj [] := by
    intro raw hraw
    rw [List.map_append, List.map_cons, Assoc.last_append, Assoc.last] at hraw
    -- the last exact member is not the unchecked one
    cases hlater : Assoc.last ((after.map sampleMember).map fun m => (m.name, m.value)) "demux" with
    | some raw' =>
        rw [hlater, Option.some_or, Option.some_or] at hraw
        obtain rfl := Option.some_inj.mp hraw
        exact last_sampleMember hlater
    | none =>
        have hnotMem := Assoc.last_eq_none_iff.mp hlater
        have hne : bad.name ≠ "demux" := by
          intro hname
          refine hnotMem ?_
          simpa [name_sampleMember, Function.comp_def] using hunchecked.2 hname
        rw [hlater, Option.none_or, if_neg hne, Option.none_or] at hraw
        exact last_sampleMember hraw
  obtain ⟨data, cfg, haccepted, hparse⟩ :=
    accepts_of_harmless hparses hharmless (by rw [hnames]; exact hrequired) hlast horder
  refine ⟨data, cfg, _, haccepted, hparse, ?_, fun hknown => ?_⟩
  · rw [List.map_map, ← hnames]
    rfl
  · have hbad : (name, bad.value) ∈ ms.map fun m => (m.name, m.value) :=
      List.mem_map_of_mem (f := fun m : Member => (m.name, m.value))
        (List.mem_append_right _ List.mem_cons_self)
    exact hunknown ⟨unknown, hknown _ hbad hunchecked.1 _ rfl _ List.mem_cons_self, rfl⟩

end

/-- An accepted document names only known settings exactly when what the key check does not
look at does, whatever the engine's decoder makes of it.  Names that leave nothing unchecked
guarantee it, and if the decoder ignores what it does not know then no others do. -/
theorem demux_keys_known_iff (env : ConfigEnv) (horder : ∀ keys, (env.mapOrder keys).Perm keys)
    {data : Utf8.Bytes} {cfg : BridgeConfig} (h : env.parseBridgeConfig data = .ok cfg) :
    ∃ members, Json.parse maxNestingDepth (Utf8.decodeRunes data) = some (.obj members) ∧
      (SettingsKnown env members ↔ ∀ m, Unchecked members m → KnownKeys env m.2) ∧
      (DemuxOnce (members.map Prod.fst) → NamesGuarantee env (members.map Prod.fst)) ∧
      (env.IgnoresUnknown → NamesGuarantee env (members.map Prod.fst) →
        DemuxOnce (members.map Prod.fst)) := by
  obtain ⟨members, hparse, hstores, hlast, htopic, hbrokers, hgroup⟩ :=
    accepted_document horder h
  refine ⟨members, hparse, settingsKnown_iff hlast, ?_, ?_⟩
  · -- every unchecked member would show in the names
    intro honce data' cfg' members' haccepted hparse' hnames'
    obtain ⟨members'', hparse'', -, hlast', -⟩ := accepted_document horder haccepted
    obtain rfl := Json.obj.inj (Option.some_inj.mp (hparse'.symm.trans hparse''))
    rw [settingsKnown_iff hlast']
    rintro m ⟨before, after, hsplit, hunchecked⟩
    refine absurd honce (not_demuxOnce_iff.mpr ⟨before.map Prod.fst, m.1, after.map Prod.fst, ?_,
      hunchecked⟩)
    rw [← hnames', hsplit, List.map_append, List.map_cons]
  · intro hdecoder hall
    by_contra hnot
    obtain ⟨before, name, after, hnames, hunchecked⟩ := not_demuxOnce_iff.mp hnot
    obtain ⟨hfields, hrequired⟩ := fields_of_stores hstores
    rw [hnames] at hfields hrequired
    obtain ⟨data', cfg', members', haccepted, hparse', hnames', hbad⟩ :=
      exists_accepted_unknown hdecoder horder hunchecked hfields fun f hf => hrequired f hf (by
        simp only [requiredFields, List.mem_cons, List.not_mem_nil, or_false] at hf
        rcases hf with rfl | rfl | rfl
        · exact htopic
        · exact hbrokers
        · exact hgroup)
    exact hbad (hall data' cfg' members' haccepted hparse' (hnames'.trans hnames.symm))

/-! ## A mistyped setting that is accepted -/

/-- A setting read over what is there. -/
def storeSetting (tag : DemuxTag) : Decoder DemuxValues := fun j old =>
  match plainEnv.readSetting tag j with
  | some value => .ok (Function.update old tag.name value, none)
  | none => .error "invalid demux setting"

/-- Settings are read by name up to case, other members ignored. -/
def foldingEnv : ConfigEnv :=
  { plainEnv with
    unmarshalDemux := fun j old =>
      (lenientDecoder DemuxTag.all DemuxTag.name storeSetting
        (fun _ => "invalid demux configuration") j old).map Prod.fst }

theorem matchesTag_foldingEnv {name : String} :
    MatchesTag foldingEnv name ↔ (fieldFor DemuxTag.all DemuxTag.name name).isSome := by
  rw [isSome_fieldFor_iff]
  constructor
  · rintro ⟨_, htag, hfold⟩
    obtain ⟨tag, hmem, rfl⟩ := List.mem_map.mp htag
    exact ⟨tag, hmem, hfold⟩
  · rintro ⟨tag, hmem, hfold⟩
    exact ⟨tag.name, List.mem_map_of_mem hmem, hfold⟩

theorem ignoresUnknown_foldingEnv : foldingEnv.IgnoresUnknown where
  ignores := by
    intro settings old
    refine (congrArg (Except.map Prod.fst) ?_).symm
    exact lenientDecoder_filter (fun name => decide (MatchesTag foldingEnv name))
      (fun name hfield => decide_eq_true (matchesTag_foldingEnv.mpr hfield)) settings old
  empty old := ⟨old, rfl⟩

/-- A setting with a letter missing, in an object whose name is not spelled exactly. -/
def typoMembers : List Member :=
  [strMember "brokers" "b", strMember "topic" "t", strMember "consumer_group" "g",
    objMember "Demux" [natMember "concurentKeys" 5]]

def typoDocument : Utf8.Bytes := Utf8.encode (String.ofList (objText typoMembers))

theorem isSome_typoDocument :
    (foldingEnv.parseBridgeConfig typoDocument).toOption.isSome = true := by
  decide +kernel

theorem parse_typoDocument :
    Json.parse maxNestingDepth (Utf8.decodeRunes typoDocument) =
      some (.obj (typoMembers.map fun m => (m.name, m.value))) := by
  rw [typoDocument, Utf8.decodeRunes_encode, String.toList_ofList]
  apply parse_of_parses
  refine parses_obj 9999 _ fun m hm => ?_
  simp only [typoMembers, List.mem_cons, List.not_mem_nil, or_false] at hm
  rcases hm with rfl | rfl | rfl | rfl
  · exact parses_str _ _
  · exact parses_str _ _
  · exact parses_str _ _
  · refine parses_obj 9998 _ fun m hm => ?_
    obtain rfl := List.mem_singleton.mp hm
    exact parses_nat 9998 5

theorem demux_key_missed :
    ∃ cfg members, foldingEnv.parseBridgeConfig typoDocument = .ok cfg ∧
      Json.parse maxNestingDepth (Utf8.decodeRunes typoDocument) = some (.obj members) ∧
      ¬ SettingsKnown foldingEnv members := by
  have haccepted := isSome_typoDocument
  cases hok : foldingEnv.parseBridgeConfig typoDocument with
  | error e =>
      rw [hok] at haccepted
      cases haccepted
  | ok cfg =>
      refine ⟨cfg, _, rfl, parse_typoDocument, fun hknown => ?_⟩
      have hdemux : ("Demux", objValue [natMember "concurentKeys" 5]) ∈
          typoMembers.map fun m => (m.name, m.value) := by simp [typoMembers, objMember, strMember]
      have hunknown : "concurentKeys" ∉ foldingEnv.demuxTags := by decide
      exact hunknown (hknown _ hdemux (by decide) _ rfl _ List.mem_cons_self)

theorem demux_keys_known_iff_typo :
    (SettingsKnown foldingEnv (typoMembers.map fun m => (m.name, m.value)) ↔
      ∀ m, Unchecked (typoMembers.map fun m => (m.name, m.value)) m →
        KnownKeys foldingEnv m.2) ∧
    ¬ NamesGuarantee foldingEnv ["brokers", "topic", "consumer_group", "Demux"] := by
  have haccepted := isSome_typoDocument
  cases hok : foldingEnv.parseBridgeConfig typoDocument with
  | error e =>
      rw [hok] at haccepted
      cases haccepted
  | ok cfg =>
      obtain ⟨members, hparse, hiff, -, hguarantee⟩ :=
        demux_keys_known_iff foldingEnv (fun keys => .refl keys) hok
      obtain rfl := Json.obj.inj (Option.some_inj.mp (hparse.symm.trans parse_typoDocument))
      refine ⟨hiff, fun hall => ?_⟩
      have honce := hguarantee ignoresUnknown_foldingEnv hall
      exact absurd (honce.1 "Demux" (by decide) (by decide)) (by decide)

end LlingrKafka.Config

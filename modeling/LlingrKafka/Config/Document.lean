import LlingrKafka.Config.Encode

/-!
# The document as a tree of members

`docMembers` is the object a configuration is written as, member by member, and
`toList_configJson` that `config_json` writes it: each push of `config_json` appends the
rendering of one member.  What follows holds of the text because it holds of the tree:
it is parsed to `docValue` (`parses_configJson`), which repeats no name
(`distinct_docValue`), and has no control character (`space_le_configJson`).
-/

namespace LlingrKafka.Config

open Json

/-! ## The tree -/

/-- The engine settings, in the order `demux_json` writes them. -/
inductive DemuxTag
  | concurrentKeys
  | perKeyBufferLen
  | commitIngestChannelLen
  | commitPartitionSliceLen
  | workerShardsCount
  | pollTimeout
  | autoCommitInterval
  | drainTimeout
  | awaitAssignmentsTimeout
  | queryTimeout
  | acquireWorkerTimeoutCircuitBreaker
  | rebalancePausePollingTimeout
  | acquireCommitGuardTimeout
  deriving DecidableEq, Repr

namespace DemuxTag

/-- The member name. -/
def name : DemuxTag → String
  | concurrentKeys => "concurrentKeys"
  | perKeyBufferLen => "perKeyBufferLen"
  | commitIngestChannelLen => "commitIngestChannelLen"
  | commitPartitionSliceLen => "commitPartitionSliceLen"
  | workerShardsCount => "workerShardsCount"
  | pollTimeout => "pollTimeout"
  | autoCommitInterval => "autoCommitInterval"
  | drainTimeout => "drainTimeout"
  | awaitAssignmentsTimeout => "awaitAssignmentsTimeout"
  | queryTimeout => "queryTimeout"
  | acquireWorkerTimeoutCircuitBreaker => "acquireWorkerTimeoutCircuitBreaker"
  | rebalancePausePollingTimeout => "rebalancePausePollingTimeout"
  | acquireCommitGuardTimeout => "acquireCommitGuardTimeout"

def all : List DemuxTag :=
  [concurrentKeys, perKeyBufferLen, commitIngestChannelLen, commitPartitionSliceLen,
    workerShardsCount, pollTimeout, autoCommitInterval, drainTimeout, awaitAssignmentsTimeout,
    queryTimeout, acquireWorkerTimeoutCircuitBreaker, rebalancePausePollingTimeout,
    acquireCommitGuardTimeout]

theorem mem_all (tag : DemuxTag) : tag ∈ all := by
  cases tag <;> decide

theorem nodup_names : (all.map name).Nodup := by decide

theorem name_injective : Function.Injective name := by
  intro tag tag' h
  exact List.inj_on_of_nodup_map nodup_names (mem_all tag) (mem_all tag') h

/-- No name has a character to escape. -/
theorem plain_name (tag : DemuxTag) : ∀ c ∈ tag.name.toList, escapeChar c = [c] := by
  have hall : (tag.name.toList.all fun c => decide (escapeChar c = [c])) = true := by
    cases tag <;> decide
  intro c hc
  exact of_decide_eq_true (List.all_eq_true.mp hall c hc)

end DemuxTag

/-- What a setting is set to. -/
inductive Setting
  | count (n : UInt32)
  | duration (ns : ℕ)
  deriving DecidableEq, Repr

/-- The value of a setting, if it is set. -/
def DemuxConfig.setting (demux : DemuxConfig) : DemuxTag → Option Setting
  | .concurrentKeys => demux.concurrentKeys.map .count
  | .perKeyBufferLen => demux.perKeyBufferLen.map .count
  | .commitIngestChannelLen => demux.commitIngestChannelLen.map .count
  | .commitPartitionSliceLen => demux.commitPartitionSliceLen.map .count
  | .workerShardsCount => demux.workerShardsCount.map .count
  | .pollTimeout => demux.pollTimeout.map .duration
  | .autoCommitInterval => demux.autoCommitInterval.map .duration
  | .drainTimeout => demux.drainTimeout.map .duration
  | .awaitAssignmentsTimeout => demux.awaitAssignmentsTimeout.map .duration
  | .queryTimeout => demux.queryTimeout.map .duration
  | .acquireWorkerTimeoutCircuitBreaker => demux.acquireWorkerTimeoutCircuitBreaker.map .duration
  | .rebalancePausePollingTimeout => demux.rebalancePausePollingTimeout.map .duration
  | .acquireCommitGuardTimeout => demux.acquireCommitGuardTimeout.map .duration

def strMember (name s : String) : Member := ⟨name, .str s, strText s⟩

def natMember (name : String) (n : ℕ) : Member :=
  ⟨name, .num (Nat.toDigits 10 n), Nat.toDigits 10 n⟩

def objMember (name : String) (ms : List Member) : Member := ⟨name, objValue ms, objText ms⟩

/-- The pairs of an object of strings. -/
def pairMembers (pairs : List (String × String)) : List Member :=
  pairs.map fun p => strMember p.1 p.2

section

variable (durationMsCeil : ℕ → ℕ)

/-- A duration in whole milliseconds. -/
def durationMember (name : String) (ns : ℕ) : Member :=
  strMember name (Duration.msText (durationMsCeil ns))

def Setting.member (name : String) : Setting → Member
  | count n => natMember name n.toNat
  | duration ns => durationMember durationMsCeil name ns

def demuxMembers (demux : DemuxConfig) : List Member :=
  DemuxTag.all.flatMap fun tag =>
    ((demux.setting tag).map (Setting.member durationMsCeil tag.name)).toList

def bandwidthMembers (statsInterval flushInterval : Option ℕ) : List Member :=
  (statsInterval.map (durationMember durationMsCeil "statsInterval")).toList ++
    (flushInterval.map (durationMember durationMsCeil "flushInterval")).toList

/-- An object that is left out when it would be empty. -/
def optObject (name : String) (ms : List Member) : List Member :=
  if ms.isEmpty then [] else [objMember name ms]

def docMembers (topic : String) (broker : BrokerConfig) (demux : DemuxConfig)
    (service : Option (String × String)) (statsInterval flushInterval : Option ℕ) : List Member :=
  [strMember "adapter" "franz", strMember "brokers" broker.brokers, strMember "topic" topic,
    strMember "consumer_group" broker.consumerGroup] ++
  (optObject "kafka_config" (pairMembers broker.dedupedKafkaConfig) ++
    (optObject "service" (service.elim [] fun s => pairMembers [("name", s.1), ("team", s.2)]) ++
      (optObject "demux" (demuxMembers durationMsCeil demux) ++
        optObject "bandwidth" (bandwidthMembers durationMsCeil statsInterval flushInterval))))

end

/-! ## The text is its rendering -/

theorem hex4_control {n : ℕ} (hn : n < 32) :
    (hex4 n).toList = ['0', '0', hexDigit (n / 16), hexDigit (n % 16)] := by
  have hall : ∀ n < 32, List.replicate (4 - (Nat.toDigits 16 n).length) '0' ++ Nat.toDigits 16 n =
      ['0', '0', hexDigit (n / 16), hexDigit (n % 16)] := by decide
  rw [hex4, String.toList_ofList, hall n hn]

/-- `json_escape_into` appends the escaped characters. -/
theorem toList_jsonEscapeInto (buf s : String) :
    (jsonEscapeInto buf s).toList = buf.toList ++ s.toList.flatMap escapeChar := by
  unfold jsonEscapeInto
  induction s.toList generalizing buf with
  | nil => simp
  | cons ch rest ih =>
      rw [List.foldl_cons, ih, List.flatMap_cons, ← List.append_assoc]
      congr 1
      unfold escapeChar
      split_ifs with hquote hslash hn hr ht hcontrol
      · rw [String.toList_append]
        rfl
      · rw [String.toList_append]
        rfl
      · rw [String.toList_append]
        rfl
      · rw [String.toList_append]
        rfl
      · rw [String.toList_append]
        rfl
      · have hlt : ch.toNat < 32 := hcontrol
        rw [String.toList_append, String.toList_append, hex4_control hlt]
        rfl
      · rw [String.toList_push]

/-- `push_string_field` appends a member. -/
theorem toList_pushStringField (buf key value : String) :
    (pushStringField buf key value).toList = buf.toList ++ (strMember key value).render := by
  simp [pushStringField, toList_jsonEscapeInto, String.toList_push, String.toList_append,
    Member.render, strMember, strText]

/-- Members behind the first each come with a comma. -/
def commaRender (m : Member) : List Char := ',' :: m.render

theorem membersText_cons (m : Member) (ms : List Member) :
    membersText (m :: ms) = m.render ++ ms.flatMap commaRender := by
  induction ms generalizing m with
  | nil => rw [membersText, List.flatMap_nil, List.append_nil]
  | cons m' ms ih =>
      rw [membersText_cons_cons, ih, List.flatMap_cons]
      rfl

theorem flatMap_optObject (name : String) {ms : List Member} (h : ms ≠ []) :
    (optObject name ms).flatMap commaRender = ',' :: (objMember name ms).render := by
  rw [optObject, if_neg (by simpa using h), List.flatMap_cons, List.flatMap_nil, List.append_nil]
  rfl

theorem toList_pushStringFields (kafkaConfig : List (String × String)) :
    ∀ {i : ℕ} {json : String}, 0 < i →
      ((kafkaConfig.zipIdx i).foldl (fun json entry =>
        let json := if entry.2 > 0 then json.push ',' else json
        pushStringField json entry.1.1 entry.1.2) json).toList =
      json.toList ++ (pairMembers kafkaConfig).flatMap commaRender := by
  induction kafkaConfig with
  | nil => simp [pairMembers]
  | cons p rest ih =>
      intro i json hi
      rw [List.zipIdx_cons, List.foldl_cons, ih (Nat.succ_pos i)]
      simp only [if_pos hi]
      rw [toList_pushStringField, String.toList_push]
      simp [pairMembers, commaRender]

theorem toList_pushKafkaConfig (json : String) (kafkaConfig : List (String × String)) :
    (pushKafkaConfig json kafkaConfig).toList =
      json.toList ++ (optObject "kafka_config" (pairMembers kafkaConfig)).flatMap commaRender := by
  cases kafkaConfig with
  | nil => simp [pushKafkaConfig, optObject, pairMembers]
  | cons p rest =>
      rw [flatMap_optObject _ (by simp [pairMembers])]
      rw [pushKafkaConfig, if_neg (by simp), List.zipIdx_cons]
      simp only [List.foldl_cons, String.toList_push]
      rw [toList_pushStringFields rest (Nat.succ_pos 0), if_neg (Nat.lt_irrefl 0),
        toList_pushStringField, String.toList_append]
      have hname : strText "kafka_config" = "\"kafka_config\"".toList := rfl
      simp [objMember, Member.render, objText, pairMembers, membersText_cons, hname]

theorem toList_pushService (json : String) (service : Option (String × String)) :
    (pushService json service).toList =
      json.toList ++ (optObject "service"
        (service.elim [] fun s => pairMembers [("name", s.1), ("team", s.2)])).flatMap
          commaRender := by
  cases service with
  | none => simp [pushService, optObject]
  | some s =>
      have hname : strText "service" = "\"service\"".toList := rfl
      rw [flatMap_optObject _ (by simp [pairMembers])]
      simp [pushService, toList_pushStringField, String.toList_push, String.toList_append,
        objMember, Member.render, objText, pairMembers, membersText_cons, commaRender, hname]

/-- The text of a member. -/
def fieldText (m : Member) : String := String.ofList m.render

theorem toList_intercalate_fieldText (ms : List Member) :
    (",".intercalate (ms.map fieldText)).toList = membersText ms := by
  induction ms with
  | nil => simp [membersText]
  | cons m ms ih =>
      cases ms with
      | nil => simp [fieldText, membersText]
      | cons m' ms =>
          rw [membersText_cons_cons, ← ih, List.map_cons, List.map_cons,
            String.intercalate_cons_cons]
          simp [fieldText]

section

variable (durationMsCeil : ℕ → ℕ)

theorem pushInt_eq (name : String) (tag : DemuxTag) (htag : tag.name = name) (v : Option UInt32)
    (fields : List String) :
    pushInt name v fields =
      fields ++ ((v.map .count).map (Setting.member durationMsCeil tag.name)).toList.map
        fieldText := by
  subst htag
  cases v with
  | none => simp [pushInt]
  | some n =>
      have htext : "\"" ++ tag.name ++ "\":" ++ toString n.toNat =
          fieldText (natMember tag.name n.toNat) := by
        apply String.toList_injective
        simp [fieldText, natMember, Member.render, strText_plain tag.plain_name]
      rw [pushInt, htext]
      rfl

theorem pushDuration_eq (name : String) (tag : DemuxTag) (htag : tag.name = name) (v : Option ℕ)
    (fields : List String) :
    pushDuration durationMsCeil name v fields =
      fields ++ ((v.map .duration).map (Setting.member durationMsCeil tag.name)).toList.map
        fieldText := by
  subst htag
  cases v with
  | none => simp [pushDuration]
  | some dur =>
      have htext : "\"" ++ tag.name ++ "\":\"" ++ toString (durationMsCeil dur) ++ "ms\"" =
          fieldText (durationMember durationMsCeil tag.name dur) := by
        apply String.toList_injective
        simp [fieldText, durationMember, strMember, Member.render, strText_plain tag.plain_name,
          Duration.strText_msText, Duration.toList_msText]
      rw [pushDuration, htext]
      rfl

/-- `demux_json` writes the settings that are set. -/
theorem demuxFields_eq (demux : DemuxConfig) :
    demux.demuxFields durationMsCeil = (demuxMembers durationMsCeil demux).map fieldText := by
  simp only [DemuxConfig.demuxFields,
    pushInt_eq durationMsCeil "concurrentKeys" .concurrentKeys rfl,
    pushInt_eq durationMsCeil "perKeyBufferLen" .perKeyBufferLen rfl,
    pushInt_eq durationMsCeil "commitIngestChannelLen" .commitIngestChannelLen rfl,
    pushInt_eq durationMsCeil "commitPartitionSliceLen" .commitPartitionSliceLen rfl,
    pushInt_eq durationMsCeil "workerShardsCount" .workerShardsCount rfl,
    pushDuration_eq durationMsCeil "pollTimeout" .pollTimeout rfl,
    pushDuration_eq durationMsCeil "autoCommitInterval" .autoCommitInterval rfl,
    pushDuration_eq durationMsCeil "drainTimeout" .drainTimeout rfl,
    pushDuration_eq durationMsCeil "awaitAssignmentsTimeout" .awaitAssignmentsTimeout rfl,
    pushDuration_eq durationMsCeil "queryTimeout" .queryTimeout rfl,
    pushDuration_eq durationMsCeil "acquireWorkerTimeoutCircuitBreaker"
      .acquireWorkerTimeoutCircuitBreaker rfl,
    pushDuration_eq durationMsCeil "rebalancePausePollingTimeout"
      .rebalancePausePollingTimeout rfl,
    pushDuration_eq durationMsCeil "acquireCommitGuardTimeout" .acquireCommitGuardTimeout rfl,
    demuxMembers, DemuxTag.all, List.flatMap_cons, List.flatMap_nil, List.map_append,
    List.append_nil, List.nil_append, List.append_assoc]
  rfl

theorem toList_pushDemux (json : String) (demux : DemuxConfig) :
    (pushDemux json (demux.demuxJson durationMsCeil)).toList =
      json.toList ++ (optObject "demux" (demuxMembers durationMsCeil demux)).flatMap
        commaRender := by
  rw [DemuxConfig.demuxJson, demuxFields_eq]
  cases hms : demuxMembers durationMsCeil demux with
  | nil => simp [pushDemux, optObject]
  | cons m ms =>
      have hname : strText "demux" = "\"demux\"".toList := rfl
      rw [flatMap_optObject _ (List.cons_ne_nil m ms), if_neg (by simp), pushDemux]
      rw [String.toList_append, String.toList_append, String.toList_append, String.toList_append,
        toList_intercalate_fieldText]
      simp [objMember, Member.render, objText, hname]

theorem toList_pushBandwidth (json : String) (statsInterval flushInterval : Option ℕ) :
    (pushBandwidth durationMsCeil json statsInterval flushInterval).toList =
      json.toList ++ (optObject "bandwidth"
        (bandwidthMembers durationMsCeil statsInterval flushInterval)).flatMap commaRender := by
  have hname : strText "bandwidth" = "\"bandwidth\"".toList := rfl
  have hstats : strText "statsInterval" = "\"statsInterval\"".toList := rfl
  have hflush : strText "flushInterval" = "\"flushInterval\"".toList := rfl
  cases statsInterval with
  | none =>
      cases flushInterval with
      | none => simp [pushBandwidth, optObject, bandwidthMembers]
      | some flush =>
          rw [flatMap_optObject _ (by simp [bandwidthMembers])]
          simp [pushBandwidth, bandwidthMembers, objMember, Member.render, objText, membersText,
            durationMember, strMember, Duration.strText_msText, Duration.toList_msText, hname,
            hflush]
  | some stats =>
      cases flushInterval with
      | none =>
          rw [flatMap_optObject _ (by simp [bandwidthMembers])]
          simp [pushBandwidth, bandwidthMembers, objMember, Member.render, objText, membersText,
            durationMember, strMember, Duration.strText_msText, Duration.toList_msText, hname,
            hstats]
      | some flush =>
          rw [flatMap_optObject _ (by simp [bandwidthMembers])]
          simp [pushBandwidth, bandwidthMembers, objMember, Member.render, objText, membersText,
            durationMember, strMember, Duration.strText_msText, Duration.toList_msText, hname,
            hstats, hflush]

variable (topic : String) (broker : BrokerConfig) (demux : DemuxConfig)
  (service : Option (String × String)) (statsInterval flushInterval : Option ℕ)

/-- `config_json` writes the object of `docMembers`. -/
theorem toList_configJson :
    (configJson durationMsCeil topic broker demux service statsInterval flushInterval).toList =
      objText (docMembers durationMsCeil topic broker demux service statsInterval
        flushInterval) := by
  simp [configJson, docMembers, toList_pushBandwidth, toList_pushDemux, toList_pushService,
    toList_pushKafkaConfig, toList_pushStringField, objText, membersText_cons, commaRender]

/-! ## What the parser makes of it -/

/-- A member whose text is parsed to its value, repeats no name and has no control
character. -/
structure Sound (depth : ℕ) (m : Member) : Prop where
  parses : Parses depth m.text m.value
  distinct : Distinct m.value
  space_le : ∀ c ∈ m.text, ' ' ≤ c

theorem sound_str (depth : ℕ) (name s : String) : Sound depth (strMember name s) where
  parses := parses_str depth s
  distinct := .str s
  space_le := space_le_strText s

theorem sound_nat (depth : ℕ) (name : String) (n : ℕ) : Sound depth (natMember name n) where
  parses := parses_nat depth n
  distinct := .num _
  space_le := space_le_numeral n

theorem sound_obj {depth : ℕ} (name : String) {ms : List Member}
    (hnames : (ms.map Member.name).Nodup) (hms : ∀ m ∈ ms, Sound depth m) :
    Sound (depth + 1) (objMember name ms) where
  parses := parses_obj depth ms fun m hm => (hms m hm).parses
  distinct := distinct_objValue hnames fun m hm => (hms m hm).distinct
  space_le := space_le_objText fun m hm => (hms m hm).space_le

theorem sound_optObject {depth : ℕ} (name : String) {ms : List Member}
    (hnames : (ms.map Member.name).Nodup) (hms : ∀ m ∈ ms, Sound depth m) :
    ∀ m ∈ optObject name ms, Sound (depth + 1) m := by
  intro m hm
  unfold optObject at hm
  split_ifs at hm
  · cases hm
  · obtain rfl := List.mem_singleton.mp hm
    exact sound_obj name hnames hms

theorem sound_pairMembers (depth : ℕ) (pairs : List (String × String)) :
    ∀ m ∈ pairMembers pairs, Sound depth m := by
  intro m hm
  obtain ⟨p, -, rfl⟩ := List.mem_map.mp hm
  exact sound_str depth p.1 p.2

theorem names_pairMembers (pairs : List (String × String)) :
    (pairMembers pairs).map Member.name = pairs.map Prod.fst := by
  simp [pairMembers, strMember]

theorem sound_demuxMembers (depth : ℕ) :
    ∀ m ∈ demuxMembers durationMsCeil demux, Sound depth m := by
  intro m hm
  obtain ⟨tag, -, hm⟩ := List.mem_flatMap.mp hm
  cases hsetting : demux.setting tag with
  | none =>
      rw [hsetting] at hm
      cases hm
  | some setting =>
      rw [hsetting, Option.map_some, Option.toList_some, List.mem_singleton] at hm
      subst hm
      cases setting with
      | count n => exact sound_nat depth tag.name n.toNat
      | duration ns => exact sound_str depth tag.name _

theorem names_demuxMembers :
    ((demuxMembers durationMsCeil demux).map Member.name).Sublist
      (DemuxTag.all.map DemuxTag.name) := by
  unfold demuxMembers
  induction DemuxTag.all with
  | nil => exact List.Sublist.slnil
  | cons tag tags ih =>
      rw [List.flatMap_cons, List.map_append, List.map_cons]
      cases demux.setting tag with
      | none => exact ih.cons tag.name
      | some setting =>
          have hname : (Setting.member durationMsCeil tag.name setting).name = tag.name := by
            cases setting <;> rfl
          rw [Option.map_some, Option.toList_some, List.map_singleton, hname]
          exact ih.cons_cons tag.name

theorem sound_bandwidthMembers (depth : ℕ) :
    ∀ m ∈ bandwidthMembers durationMsCeil statsInterval flushInterval, Sound depth m := by
  intro m hm
  rcases List.mem_append.mp hm with hm | hm
  · cases statsInterval with
    | none => cases hm
    | some stats =>
        obtain rfl := List.mem_singleton.mp hm
        exact sound_str depth _ _
  · cases flushInterval with
    | none => cases hm
    | some flush =>
        obtain rfl := List.mem_singleton.mp hm
        exact sound_str depth _ _

theorem nodup_names_bandwidthMembers :
    ((bandwidthMembers durationMsCeil statsInterval flushInterval).map Member.name).Nodup := by
  cases statsInterval <;> cases flushInterval <;>
    simp [bandwidthMembers, durationMember, strMember]

theorem nodup_keys_dedupedKafkaConfig : (broker.dedupedKafkaConfig.map Prod.fst).Nodup :=
  Assoc.nodup_keys_foldl_put _ List.nodup_nil

/-- Deduplication keeps the last value of every key. -/
theorem last_dedupedKafkaConfig (key : String) :
    Assoc.last broker.dedupedKafkaConfig key = Assoc.last broker.kafkaConfig key := by
  have hlast := Assoc.last_foldl_put broker.kafkaConfig key (l := []) List.nodup_nil
  rwa [List.nil_append] at hlast

theorem sound_docMembers (depth : ℕ) :
    ∀ m ∈ docMembers durationMsCeil topic broker demux service statsInterval flushInterval,
      Sound (depth + 1) m := by
  intro m hm
  simp only [docMembers, List.mem_append, List.mem_cons, List.not_mem_nil, or_false] at hm
  rcases hm with (rfl | rfl | rfl | rfl) | hm | hm | hm | hm
  · exact sound_str _ _ _
  · exact sound_str _ _ _
  · exact sound_str _ _ _
  · exact sound_str _ _ _
  · refine sound_optObject _ ?_ (sound_pairMembers depth _) m hm
    rw [names_pairMembers]
    exact nodup_keys_dedupedKafkaConfig broker
  · cases service with
    | none => cases hm
    | some s =>
        refine sound_optObject _ ?_ (sound_pairMembers depth _) m hm
        rw [names_pairMembers]
        show (["name", "team"] : List String).Nodup
        decide
  · exact sound_optObject _
      ((names_demuxMembers durationMsCeil demux).nodup DemuxTag.nodup_names)
      (sound_demuxMembers durationMsCeil demux depth) m hm
  · exact sound_optObject _ (nodup_names_bandwidthMembers durationMsCeil _ _)
      (sound_bandwidthMembers durationMsCeil _ _ depth) m hm

theorem names_optObject (name : String) (ms : List Member) :
    ((optObject name ms).map Member.name).Sublist [name] := by
  unfold optObject
  split_ifs
  · exact List.nil_sublist _
  · exact List.Sublist.refl _

theorem nodup_names_docMembers :
    ((docMembers durationMsCeil topic broker demux service statsInterval flushInterval).map
      Member.name).Nodup := by
  have hsub : ((docMembers durationMsCeil topic broker demux service statsInterval
      flushInterval).map Member.name).Sublist
      (["adapter", "brokers", "topic", "consumer_group"] ++
        (["kafka_config"] ++ (["service"] ++ (["demux"] ++ ["bandwidth"])))) := by
    simp only [docMembers, List.map_append]
    exact (List.Sublist.refl _).append ((names_optObject _ _).append
      ((names_optObject _ _).append ((names_optObject _ _).append (names_optObject _ _))))
  exact hsub.nodup (by decide)

/-- The tree of the document. -/
def docValue : Json :=
  objValue (docMembers durationMsCeil topic broker demux service statsInterval flushInterval)

/-- The document is parsed to its tree, if two levels of nesting are allowed. -/
theorem parses_configJson (depth : ℕ) :
    Parses (depth + 2)
      (configJson durationMsCeil topic broker demux service statsInterval flushInterval).toList
      (docValue durationMsCeil topic broker demux service statsInterval flushInterval) := by
  rw [toList_configJson]
  apply parses_obj
  intro m hm
  exact (sound_docMembers durationMsCeil topic broker demux service statsInterval flushInterval
    depth m hm).parses

/-- No object of the document repeats a name. -/
theorem distinct_docValue :
    Distinct (docValue durationMsCeil topic broker demux service statsInterval flushInterval) := by
  apply distinct_objValue (nodup_names_docMembers ..)
  intro m hm
  exact (sound_docMembers durationMsCeil topic broker demux service statsInterval flushInterval
    0 m hm).distinct

/-- No character of the document is a control character. -/
theorem space_le_configJson :
    ∀ c ∈ (configJson durationMsCeil topic broker demux service statsInterval
      flushInterval).toList, ' ' ≤ c := by
  rw [toList_configJson]
  apply space_le_objText
  intro m hm
  exact (sound_docMembers durationMsCeil topic broker demux service statsInterval flushInterval
    0 m hm).space_le

end

end LlingrKafka.Config

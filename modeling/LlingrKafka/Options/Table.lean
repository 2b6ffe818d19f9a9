import LlingrKafka.Foundations.Checks
import LlingrKafka.Foundations.FixedWidth
import LlingrKafka.Options.Fault
import LlingrKafka.Security.Collect

/-!
# The option table

`franzOptionKeys` (`bridge/adapter_franz.go`) and the value parsers it uses
(`bridge/adapters.go`).  Most rows are a parser and the client option its result goes to;
durations are in nanoseconds, as 64-bit products of the milliseconds given.

`rowSpec_of_translator` is all that later modules need of a row: which option it can return, and
that it returns none only for the three switches that restate the client's default.
-/

namespace LlingrKafka.Options

open Checks FixedWidth

/-- `kgo.GroupBalancer`. -/
inductive GroupBalancer
  | cooperativeSticky
  | sticky
  | roundRobin
  | range
  deriving DecidableEq, Repr

/-- Where `kgo.ConsumeStartOffset` starts. -/
inductive StartOffset
  | atStart
  | atEnd
  deriving DecidableEq, Repr

/-- `kgo.IsolationLevel`. -/
inductive IsolationLevel
  | readUncommitted
  | readCommitted
  deriving DecidableEq, Repr

/-- The client options of the table. -/
inductive ClientOpt
  | consumeStartOffset (start : StartOffset)
  | clientID (id : String)
  | sessionTimeout (d : ℤ)
  | heartbeatInterval (d : ℤ)
  | rebalanceTimeout (d : ℤ)
  | balancers (balancers : List GroupBalancer)
  | fetchMinBytes (n : ℤ)
  | fetchMaxBytes (n : ℤ)
  | fetchMaxPartitionBytes (n : ℤ)
  | fetchMaxWait (d : ℤ)
  | instanceID (id : String)
  | rack (rack : String)
  | metadataMaxAge (d : ℤ)
  | fetchIsolationLevel (level : IsolationLevel)
  | dialTimeout (d : ℤ)
  | connIdleTimeout (d : ℤ)
  | requestRetries (n : ℤ)
  | retryTimeout (d : ℤ)
  | maxConcurrentFetches (n : ℤ)
  | allowAutoTopicCreation
  | disableFetchCRCValidation
  | disableClientMetrics
  deriving DecidableEq, Repr

/-! ## The parsers -/

/-- `time.Duration(ms) * time.Millisecond`. -/
def milliseconds (ms : ℤ) : ℤ := wrap 64 (ms * 1000000)

/-- `millisOption`. -/
def millisOption (key value : String) : Except OptionFault ℤ :=
  match Text.atoi value with
  | some ms => if ms ≤ 0 then .error (.millis key value) else .ok (milliseconds ms)
  | none => .error (.millis key value)

/-- `nonNegativeMillisOption`. -/
def nonNegativeMillisOption (key value : String) : Except OptionFault ℤ :=
  match Text.atoi value with
  | some ms => if ms < 0 then .error (.nonNegativeMillis key value) else .ok (milliseconds ms)
  | none => .error (.nonNegativeMillis key value)

/-- `boolOption`. -/
def boolOption (key value : String) : Except OptionFault Bool :=
  if Security.lowerTrim value = "true" then .ok true
  else if Security.lowerTrim value = "false" then .ok false
  else .error (.bool key value)

/-- `int32Option`. -/
def int32Option (key value : String) : Except OptionFault ℤ :=
  match Text.parseInt 32 value with
  | some n => if n ≤ 0 then .error (.int32 key value) else .ok n
  | none => .error (.int32 key value)

/-! ## The rows -/

/-- A row of the table; no option means that the value restates the client's default. -/
abbrev Translator := String → Except OptionFault (Option ClientOpt)

/-- A row that hands the parsed value on. -/
def parsed {α : Type} (parse : String → String → Except OptionFault α) (key : String)
    (opt : α → Option ClientOpt) : String × Translator :=
  (key, fun value => (parse key value).map opt)

def startOffset (value : String) : Except OptionFault (Option ClientOpt) :=
  if value = "earliest" then .ok (some (.consumeStartOffset .atStart))
  else if value = "latest" then .ok (some (.consumeStartOffset .atEnd))
  else .error (.autoOffsetReset value)

/-- One name of a preference list. -/
def balancer (value : String) (name : String) : Except OptionFault GroupBalancer :=
  if name = "cooperative-sticky" then .ok .cooperativeSticky
  else if name = "sticky" then .ok .sticky
  else if name = "roundrobin" then .ok .roundRobin
  else if name = "range" then .ok .range
  else if name = "" then .error (.strategyEmpty value)
  else .error (.strategyUnsupported name)

def assignmentStrategy (value : String) : Except OptionFault (Option ClientOpt) :=
  ((value.toList.splitOn ',').mapM fun raw =>
    balancer value (Security.lowerTrim (String.ofList raw))).map fun names =>
      some (.balancers names)

/-- A name that must not be blank. -/
def nonBlank (blank : OptionFault) (opt : String → ClientOpt) (value : String) :
    Except OptionFault (Option ClientOpt) :=
  if Text.trimSpace value = "" then .error blank else .ok (some (opt value))

def isolationLevel (value : String) : Except OptionFault (Option ClientOpt) :=
  if Security.lowerTrim value = "read_committed" then
    .ok (some (.fetchIsolationLevel .readCommitted))
  else if Security.lowerTrim value = "read_uncommitted" then .error .readUncommitted
  else .error (.isolationLevel value)

/-- A row that sets an option unless the value is the client's default. -/
def switch (key : String) (default : Bool) (opt : ClientOpt) : String × Translator :=
  parsed boolOption key fun on => if on = default then none else some opt

/-- `franzOptionKeys`. -/
def franzOptionKeys : List (String × Translator) :=
  [("auto.offset.reset", startOffset),
    ("client.id", fun value => .ok (some (.clientID value))),
    parsed millisOption "session.timeout.ms" fun d => some (.sessionTimeout d),
    parsed millisOption "heartbeat.interval.ms" fun d => some (.heartbeatInterval d),
    parsed millisOption "rebalance.timeout.ms" fun d => some (.rebalanceTimeout d),
    ("partition.assignment.strategy", assignmentStrategy),
    parsed int32Option "fetch.min.bytes" fun n => some (.fetchMinBytes n),
    parsed int32Option "fetch.max.bytes" fun n => some (.fetchMaxBytes n),
    parsed int32Option "max.partition.fetch.bytes" fun n => some (.fetchMaxPartitionBytes n),
    parsed millisOption "fetch.max.wait.ms" fun d => some (.fetchMaxWait d),
    parsed millisOption "fetch.wait.max.ms" fun d => some (.fetchMaxWait d),
    ("group.instance.id", nonBlank .instanceIDEmpty .instanceID),
    ("client.rack", nonBlank .rackEmpty .rack),
    parsed millisOption "metadata.max.age.ms" fun d => some (.metadataMaxAge d),
    ("isolation.level", isolationLevel),
    parsed millisOption "socket.connection.setup.timeout.ms" fun d => some (.dialTimeout d),
    parsed millisOption "connections.max.idle.ms" fun d => some (.connIdleTimeout d),
    parsed int32Option "llingr.request.retries" fun n => some (.requestRetries n),
    parsed millisOption "llingr.retry.timeout.ms" fun d => some (.retryTimeout d),
    parsed int32Option "llingr.max.concurrent.fetches" fun n => some (.maxConcurrentFetches n),
    -- the switches set nothing when they restate the client's default
    switch "allow.auto.create.topics" false .allowAutoTopicCreation,
    switch "check.crcs" true .disableFetchCRCValidation,
    switch "enable.metrics.push" true .disableClientMetrics]

/-- The row of a key. -/
def translator (key : String) : Option Translator := franzOptionKeys.lookup key

theorem translator_of_mem {row : String × Translator} (h : row ∈ franzOptionKeys) :
    translator row.1 = some row.2 :=
  Assoc.lookup_eq_some_of_mem (by decide) h

/-! ## What the rows return -/

theorem millis_of_error {key value : String} {e : OptionFault}
    (h : millisOption key value = .error e) : e = .millis key value := by
  unfold millisOption at h
  split at h
  · split_ifs at h
    exact (Except.error.inj h).symm
  · exact (Except.error.inj h).symm

theorem nonNegativeMillis_of_error {key value : String} {e : OptionFault}
    (h : nonNegativeMillisOption key value = .error e) : e = .nonNegativeMillis key value := by
  unfold nonNegativeMillisOption at h
  split at h
  · split_ifs at h
    exact (Except.error.inj h).symm
  · exact (Except.error.inj h).symm

theorem int32_of_error {key value : String} {e : OptionFault}
    (h : int32Option key value = .error e) : e = .int32 key value := by
  unfold int32Option at h
  split at h
  · split_ifs at h
    exact (Except.error.inj h).symm
  · exact (Except.error.inj h).symm

theorem code_of_millisOption {key value : String} {e : OptionFault}
    (h : millisOption key value = .error e) : e.code = .badOption := by
  obtain rfl := millis_of_error h
  rfl

theorem code_of_nonNegativeMillisOption {key value : String} {e : OptionFault}
    (h : nonNegativeMillisOption key value = .error e) : e.code = .badOption := by
  obtain rfl := nonNegativeMillis_of_error h
  rfl

theorem code_of_int32Option {key value : String} {e : OptionFault}
    (h : int32Option key value = .error e) : e.code = .badOption := by
  obtain rfl := int32_of_error h
  rfl

theorem code_of_boolOption {key value : String} {e : OptionFault}
    (h : boolOption key value = .error e) : e.code = .badOption := by
  unfold boolOption at h
  split_ifs at h
  obtain rfl := Except.error.inj h
  rfl

theorem boolOption_eq_ok {key value : String} {on : Bool} :
    boolOption key value = .ok on ↔
      Security.lowerTrim value = if on then "true" else "false" := by
  unfold boolOption
  split_ifs with htrue hfalse
  all_goals cases on
  all_goals simp_all

/-- A switch is spelled in ASCII: no other letter has one of its letters as lower case. -/
theorem ascii_of_boolOption {key value : String} {on : Bool}
    (h : boolOption key value = .ok on) : ∀ c ∈ Text.trim value.toList, c.toNat < 128 := by
  intro c hc
  have hletters : ((if on then "true" else "false").toList.all fun d =>
      decide (d.toNat < 128 ∧ d ≠ 'i' ∧ d ≠ 'k')) = true := by
    cases on <;> decide
  have hmem : Text.lowerRune c ∈ (Security.lowerTrim value).toList := by
    rw [Security.lowerTrim, Text.toLower, Text.trimSpace, String.toList_ofList,
      String.toList_ofList]
    exact List.mem_map_of_mem hc
  rw [boolOption_eq_ok.mp h] at hmem
  obtain ⟨hascii, hi, hk⟩ := of_decide_eq_true (List.all_eq_true.mp hletters _ hmem)
  exact (Text.ascii_of_lowerRune hascii).resolve_right (by simp [hi, hk])

/-- The keys whose rows set an option. -/
def ClientOpt.keys : ClientOpt → List String
  | consumeStartOffset _ => ["auto.offset.reset"]
  | clientID _ => ["client.id"]
  | sessionTimeout _ => ["session.timeout.ms"]
  | heartbeatInterval _ => ["heartbeat.interval.ms"]
  | rebalanceTimeout _ => ["rebalance.timeout.ms"]
  | balancers _ => ["partition.assignment.strategy"]
  | fetchMinBytes _ => ["fetch.min.bytes"]
  | fetchMaxBytes _ => ["fetch.max.bytes"]
  | fetchMaxPartitionBytes _ => ["max.partition.fetch.bytes"]
  | fetchMaxWait _ => ["fetch.max.wait.ms", "fetch.wait.max.ms"]
  | instanceID _ => ["group.instance.id"]
  | rack _ => ["client.rack"]
  | metadataMaxAge _ => ["metadata.max.age.ms"]
  | fetchIsolationLevel _ => ["isolation.level"]
  | dialTimeout _ => ["socket.connection.setup.timeout.ms"]
  | connIdleTimeout _ => ["connections.max.idle.ms"]
  | requestRetries _ => ["llingr.request.retries"]
  | retryTimeout _ => ["llingr.retry.timeout.ms"]
  | maxConcurrentFetches _ => ["llingr.max.concurrent.fetches"]
  | allowAutoTopicCreation => ["allow.auto.create.topics"]
  | disableFetchCRCValidation => ["check.crcs"]
  | disableClientMetrics => ["enable.metrics.push"]

/-- The values that restate a default of the client. -/
def RestatesDefault (key value : String) : Prop :=
  (key = "allow.auto.create.topics" ∧ Security.lowerTrim value = "false") ∨
    ((key = "check.crcs" ∨ key = "enable.metrics.push") ∧ Security.lowerTrim value = "true")

/-- What a row may return. -/
structure RowSpec (row : String × Translator) : Prop where
  option : ∀ {value opt}, row.2 value = .ok (some opt) → row.1 ∈ opt.keys
  committed : ∀ {value}, row.2 value ≠ .ok (some (.fetchIsolationLevel .readUncommitted))
  default : ∀ {value}, row.2 value = .ok none ↔ RestatesDefault row.1 value
  fault : ∀ {value e}, row.2 value = .error e → e.code = .badOption

section

variable {α : Type} {parse : String → String → Except OptionFault α} {key value : String}
  {opt : α → Option ClientOpt}

theorem parsed_eq_ok {o : Option ClientOpt} :
    (parsed parse key opt).2 value = .ok o ↔ ∃ a, parse key value = .ok a ∧ opt a = o :=
  map_eq_ok

theorem parsed_eq_error {e : OptionFault} :
    (parsed parse key opt).2 value = .error e ↔ parse key value = .error e :=
  map_eq_error

end

/-- Rows that always set an option. -/
theorem rowSpec_parsed {α : Type} {parse : String → String → Except OptionFault α} {key : String}
    {opt : α → ClientOpt} (hkey : ∀ value, ¬ RestatesDefault key value)
    (hcode : ∀ {value e}, parse key value = .error e → e.code = .badOption)
    (hopt : ∀ a, key ∈ (opt a).keys)
    (hlevel : ∀ a, opt a ≠ .fetchIsolationLevel .readUncommitted) :
    RowSpec (parsed parse key fun a => some (opt a)) := by
  have hrow : ∀ {value o}, (parsed parse key fun a => some (opt a)).2 value = .ok o →
      ∃ a, o = some (opt a) := by
    intro value o h
    obtain ⟨a, -, ha⟩ := parsed_eq_ok.mp h
    exact ⟨a, ha.symm⟩
  constructor
  · intro value o h
    obtain ⟨a, ha⟩ := hrow h
    rw [Option.some_inj.mp ha]
    exact hopt a
  · intro value h
    obtain ⟨a, ha⟩ := hrow h
    exact hlevel a (Option.some_inj.mp ha).symm
  · intro value
    refine iff_of_false (fun h => ?_) (hkey value)
    obtain ⟨a, ha⟩ := hrow h
    cases ha
  · intro value e h
    exact hcode (parsed_eq_error.mp h)

/-- The switches. -/
theorem rowSpec_switch {key : String} {default : Bool} {opt : ClientOpt}
    (hkey : ∀ value, RestatesDefault key value ↔
      Security.lowerTrim value = if default then "true" else "false")
    (hopt : key ∈ opt.keys) (hlevel : opt ≠ .fetchIsolationLevel .readUncommitted) :
    RowSpec (switch key default opt) := by
  have hrow : ∀ {value o}, (switch key default opt).2 value = .ok o ↔
      ∃ on, boolOption key value = .ok on ∧ (if on = default then none else some opt) = o :=
    parsed_eq_ok
  constructor
  · intro value o h
    obtain ⟨on, -, ha⟩ := hrow.mp h
    split_ifs at ha
    rw [← Option.some_inj.mp ha]
    exact hopt
  · intro value h
    obtain ⟨on, -, ha⟩ := hrow.mp h
    split_ifs at ha
    exact hlevel (Option.some_inj.mp ha)
  · intro value
    show _ ↔ RestatesDefault key value
    rw [hkey value, ← @boolOption_eq_ok key, hrow]
    constructor
    · rintro ⟨on, hon, ha⟩
      split_ifs at ha with heq
      rw [← heq]
      exact hon
    · exact fun h => ⟨default, h, if_pos rfl⟩
  · intro value e h
    exact code_of_boolOption (parsed_eq_error.mp h)

theorem not_restatesDefault {key : String}
    (h : key ∉ ["allow.auto.create.topics", "check.crcs", "enable.metrics.push"]) (value : String) :
    ¬ RestatesDefault key value := by
  simp only [List.mem_cons, List.not_mem_nil, or_false, not_or] at h
  rintro (⟨hkey, -⟩ | ⟨hkey | hkey, -⟩)
  · exact h.1 hkey
  · exact h.2.1 hkey
  · exact h.2.2 hkey

theorem rowSpec_nonBlank {key : String} {blank : OptionFault} {opt : String → ClientOpt}
    (hkey : ∀ value, ¬ RestatesDefault key value) (hblank : blank.code = .badOption)
    (hopt : ∀ s, key ∈ (opt s).keys)
    (hlevel : ∀ s, opt s ≠ .fetchIsolationLevel .readUncommitted) :
    RowSpec (key, nonBlank blank opt) := by
  constructor
  · intro value o h
    simp only [nonBlank] at h
    split_ifs at h
    rw [← Option.some_inj.mp (Except.ok.inj h)]
    exact hopt value
  · intro value h
    simp only [nonBlank] at h
    split_ifs at h
    exact hlevel value (Option.some_inj.mp (Except.ok.inj h))
  · intro value
    refine iff_of_false (fun h => ?_) (hkey value)
    simp only [nonBlank] at h
    split_ifs at h
    cases h
  · intro value e h
    simp only [nonBlank] at h
    split_ifs at h
    rw [← Except.error.inj h]
    exact hblank

theorem rowSpec_startOffset : RowSpec ("auto.offset.reset", startOffset) := by
  constructor
  · intro value o h
    simp only [startOffset] at h
    split_ifs at h <;>
      (rw [← Option.some_inj.mp (Except.ok.inj h)]; exact List.mem_singleton_self _)
  · intro value h
    simp only [startOffset] at h
    split_ifs at h <;> cases h
  · intro value
    refine iff_of_false (fun h => ?_) (not_restatesDefault (by decide) value)
    simp only [startOffset] at h
    split_ifs at h <;> cases h
  · intro value e h
    simp only [startOffset] at h
    split_ifs at h
    rw [← Except.error.inj h]
    rfl

theorem rowSpec_isolationLevel : RowSpec ("isolation.level", isolationLevel) := by
  constructor
  · intro value o h
    simp only [isolationLevel] at h
    split_ifs at h
    rw [← Option.some_inj.mp (Except.ok.inj h)]
    exact List.mem_singleton_self _
  · intro value h
    simp only [isolationLevel] at h
    split_ifs at h
    cases h
  · intro value
    refine iff_of_false (fun h => ?_) (not_restatesDefault (by decide) value)
    simp only [isolationLevel] at h
    split_ifs at h
    cases h
  · intro value e h
    simp only [isolationLevel] at h
    split_ifs at h <;> (rw [← Except.error.inj h]; rfl)

theorem code_of_balancer {value name : String} {e : OptionFault}
    (h : balancer value name = .error e) : e.code = .badOption := by
  unfold balancer at h
  split_ifs at h <;> (rw [← Except.error.inj h]; rfl)

theorem code_of_mapM_balancer {value : String} {names : List (List Char)} {e : OptionFault}
    (h : (names.mapM fun raw => balancer value (Security.lowerTrim (String.ofList raw))) =
      .error e) : e.code = .badOption := by
  induction names generalizing e with
  | nil => cases h
  | cons raw names ih =>
      rw [List.mapM_cons] at h
      rcases bind_eq_error.mp h with hfirst | ⟨b, -, hrest⟩
      · exact code_of_balancer hfirst
      · rcases bind_eq_error.mp hrest with htail | ⟨bs, -, hpure⟩
        · exact ih htail
        · cases hpure

theorem rowSpec_assignmentStrategy :
    RowSpec ("partition.assignment.strategy", assignmentStrategy) := by
  constructor
  · intro value o h
    obtain ⟨names, -, hnames⟩ := map_eq_ok.mp h
    rw [← Option.some_inj.mp hnames]
    exact List.mem_singleton_self _
  · intro value h
    obtain ⟨names, -, hnames⟩ := map_eq_ok.mp h
    cases hnames
  · intro value
    refine iff_of_false (fun h => ?_) (not_restatesDefault (by decide) value)
    obtain ⟨names, -, hnames⟩ := map_eq_ok.mp h
    cases hnames
  · intro value e h
    exact code_of_mapM_balancer (map_eq_error.mp h)

theorem rowSpec_clientID : RowSpec ("client.id", fun value => .ok (some (.clientID value))) := by
  constructor
  · intro value o h
    rw [← Option.some_inj.mp (Except.ok.inj h)]
    exact List.mem_singleton_self _
  · intro value h
    cases h
  · intro value
    exact iff_of_false (fun h => by cases h) (not_restatesDefault (by decide) value)
  · intro value e h
    cases h

section

variable {key : String} {opt : ℤ → ClientOpt}

theorem rowSpec_millis (hopt : ∀ d, key ∈ (opt d).keys)
    (hlevel : ∀ d, opt d ≠ .fetchIsolationLevel .readUncommitted)
    (hkey : key ∉ ["allow.auto.create.topics", "check.crcs", "enable.metrics.push"]) :
    RowSpec (parsed millisOption key fun d => some (opt d)) :=
  rowSpec_parsed (not_restatesDefault hkey) code_of_millisOption hopt hlevel

theorem rowSpec_int32 (hopt : ∀ n, key ∈ (opt n).keys)
    (hlevel : ∀ n, opt n ≠ .fetchIsolationLevel .readUncommitted)
    (hkey : key ∉ ["allow.auto.create.topics", "check.crcs", "enable.metrics.push"]) :
    RowSpec (parsed int32Option key fun n => some (opt n)) :=
  rowSpec_parsed (not_restatesDefault hkey) code_of_int32Option hopt hlevel

end

/-- Every row of the table. -/
theorem rowSpec_of_mem : ∀ row ∈ franzOptionKeys, RowSpec row := by
  simp only [franzOptionKeys, List.forall_mem_cons]
  refine ⟨rowSpec_startOffset, rowSpec_clientID, ?_, ?_, ?_, rowSpec_assignmentStrategy, ?_, ?_, ?_,
    ?_, ?_, ?_, ?_, ?_, rowSpec_isolationLevel, ?_, ?_, ?_, ?_, ?_, ?_, ?_, ?_, by simp⟩
  · exact rowSpec_millis (by simp [ClientOpt.keys]) (by simp) (by decide)
  · exact rowSpec_millis (by simp [ClientOpt.keys]) (by simp) (by decide)
  · exact rowSpec_millis (by simp [ClientOpt.keys]) (by simp) (by decide)
  · exact rowSpec_int32 (by simp [ClientOpt.keys]) (by simp) (by decide)
  · exact rowSpec_int32 (by simp [ClientOpt.keys]) (by simp) (by decide)
  · exact rowSpec_int32 (by simp [ClientOpt.keys]) (by simp) (by decide)
  · exact rowSpec_millis (by simp [ClientOpt.keys]) (by simp) (by decide)
  · exact rowSpec_millis (by simp [ClientOpt.keys]) (by simp) (by decide)
  · exact rowSpec_nonBlank (not_restatesDefault (by decide)) rfl (by simp [ClientOpt.keys])
      (by simp)
  · exact rowSpec_nonBlank (not_restatesDefault (by decide)) rfl (by simp [ClientOpt.keys])
      (by simp)
  · exact rowSpec_millis (by simp [ClientOpt.keys]) (by simp) (by decide)
  · exact rowSpec_millis (by simp [ClientOpt.keys]) (by simp) (by decide)
  · exact rowSpec_millis (by simp [ClientOpt.keys]) (by simp) (by decide)
  · exact rowSpec_int32 (by simp [ClientOpt.keys]) (by simp) (by decide)
  · exact rowSpec_millis (by simp [ClientOpt.keys]) (by simp) (by decide)
  · exact rowSpec_int32 (by simp [ClientOpt.keys]) (by simp) (by decide)
  · exact rowSpec_switch (by simp [RestatesDefault]) (by simp [ClientOpt.keys]) (by simp)
  · exact rowSpec_switch (by simp [RestatesDefault]) (by simp [ClientOpt.keys]) (by simp)
  · exact rowSpec_switch (by simp [RestatesDefault]) (by simp [ClientOpt.keys]) (by simp)

/-- The row of a key. -/
theorem mem_of_translator {key : String} {translate : Translator}
    (h : translator key = some translate) : (key, translate) ∈ franzOptionKeys := by
  obtain ⟨before, after, heq, -⟩ := List.lookup_eq_some_iff.mp h
  rw [heq]
  exact List.mem_append_right _ List.mem_cons_self

theorem rowSpec_of_translator {key : String} {translate : Translator}
    (h : translator key = some translate) : RowSpec (key, translate) :=
  rowSpec_of_mem _ (mem_of_translator h)

end LlingrKafka.Options

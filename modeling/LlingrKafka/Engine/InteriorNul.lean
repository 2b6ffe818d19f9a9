import LlingrKafka.Builder.Options
import LlingrKafka.Config.Document
import LlingrKafka.Engine.Publication
import LlingrKafka.Foundations.Utf8

/-!
# NUL characters in the configuration

`build` refuses a document with an interior NUL byte (`src/engine.rs`).  The document is
what `config_json` writes, and a `Builder` is what its setters leave; `Builds` says of a run
that the label of each conversion is the answer of `CString::new` for the builder's document.

Every string goes through `json_escape_into` on its way, which writes a NUL as `\u0000`, so no
document has a NUL byte (`cStringNew_document`).  The refusal is therefore reached by no
builder: a call that has not heard from `llingr_init` holds no error of its code
(`unrefused_of_exec`), and the run of `acceptedRun` goes through for each.
-/

namespace LlingrKafka.Engine

open Bridge LlingrKafka.Config

/-- `Builder` of `src/engine.rs`.  The first failure of `Options::validate` is the
`deferred_error` of its `BrokerConfig`. -/
structure Builder where
  topic : String
  broker : BrokerConfig
  deferredError : Option String
  demux : DemuxConfig
  service : Option (String × String)
  bandwidthStatsInterval : Option ℕ
  bandwidthFlushInterval : Option ℕ
  metrics : Option MetricsMode
  shutdown : Bool

namespace Builder

/-- `Builder::new`. -/
def new (topic : String) : Builder where
  topic := topic
  broker := ⟨"", "", []⟩
  deferredError := none
  demux := ⟨none, none, none, none, none, none, none, none, none, none, none, none, none⟩
  service := none
  bandwidthStatsInterval := none
  bandwidthFlushInterval := none
  metrics := none
  shutdown := false

/-- `Builder::brokers`. -/
def brokers (b : Builder) (brokers : String) : Builder :=
  { b with broker := { b.broker with brokers } }

/-- `Builder::consumer_group`. -/
def consumerGroup (b : Builder) (group : String) : Builder :=
  { b with broker := { b.broker with consumerGroup := group } }

/-- `Builder::options`, with `BrokerConfig::adapter_options`. -/
def options (b : Builder) (options : LlingrKafka.Builder.Options) : Builder where
  topic := b.topic
  broker := { b.broker with kafkaConfig := b.broker.kafkaConfig ++ options.allEntries }
  deferredError :=
    match options.validate with
    | .error message => some (b.deferredError.getD message)
    | .ok () => b.deferredError
  demux := b.demux
  service := b.service
  bandwidthStatsInterval := b.bandwidthStatsInterval
  bandwidthFlushInterval := b.bandwidthFlushInterval
  metrics := b.metrics
  shutdown := b.shutdown

/-- The configuration that `build` branches on. -/
def attempt (b : Builder) : Attempt := ⟨b.topic, b.deferredError, b.metrics, b.shutdown⟩

/-- The document that `build` writes. -/
def document (durationMsCeil : ℕ → ℕ) (b : Builder) : String :=
  configJson durationMsCeil b.topic b.broker b.demux b.service b.bandwidthStatsInterval
    b.bandwidthFlushInterval

/-- Some string of the configuration has a NUL character. -/
def HasNul (b : Builder) : Prop :=
  ∃ s, '\x00' ∈ s.toList ∧
    (s = b.topic ∨ s = b.broker.brokers ∨ s = b.broker.consumerGroup ∨
      (∃ service ∈ b.service, s = service.1 ∨ s = service.2) ∨
      ∃ entry ∈ b.broker.kafkaConfig, s = entry.1 ∨ s = entry.2)

end Builder

/-- `CString::new`: the bytes and a final NUL, or nothing if one of them is NUL. -/
def cStringNew (bytes : Utf8.Bytes) : Option Utf8.Bytes :=
  if 0 ∈ bytes then none else some (bytes ++ [0])

/-- The error of a document that is no C string. -/
def interiorNulError : LlingrError := ⟨-2, "configuration contains an interior NUL byte"⟩

section

variable {ι : Type*} (durationMsCeil : ℕ → ℕ) (b : Builder)

/-- The call of `t` in the run is the one for `b`. -/
structure Builds (t : ι) (labels : List (ι × BuildMove)) : Prop where
  called : ∀ attempt, (t, .call attempt) ∈ labels → attempt = b.attempt
  converted : ∀ nul, (t, .converted nul) ∈ labels →
    nul = (cStringNew (Utf8.encode (b.document durationMsCeil))).isNone

/-- The call of `t` was refused for a NUL before it bound an endpoint, boxed its handlers or
called `llingr_init`. -/
structure NulRefused (t : ι) (labels : List (ι × BuildMove)) (c : BuildCfg ι) : Prop where
  result : (c.threads t).result = some (.error interiorNulError)
  unbound : ∀ failure, (t, .bound failure) ∉ labels
  unboxed : c.shared.boxes t = none
  uninitialised : ∀ rc text, (t, .initReturns rc text) ∉ labels

/-- A call for `b` that gets as far as the conversion, and returns, is refused for a NUL. -/
def RejectsNul (ι : Type*) [DecidableEq ι] : Prop :=
  ∀ (t : ι) (labels : List (ι × BuildMove)) (c : BuildCfg ι),
    (buildMachine ι).exec (buildMachine ι).start labels = some c →
    Builds durationMsCeil b t labels → (∃ nul, (t, .converted nul) ∈ labels) →
    (c.threads t).result.isSome → NulRefused t labels c

/-! ## The document -/

/-- The document is a C string. -/
theorem cStringNew_document :
    (cStringNew (Utf8.encode (b.document durationMsCeil))).isNone = false := by
  have hspace := Utf8.space_le_of_mem_encode (space_le_configJson durationMsCeil b.topic b.broker
    b.demux b.service b.bandwidthStatsInterval b.bandwidthFlushInterval)
  have hnul : (0 : UInt8) ∉ Utf8.encode (b.document durationMsCeil) := fun hmem =>
    absurd (hspace 0 hmem) (by decide)
  rw [cStringNew, if_neg hnul]
  rfl

/-! ## No call is refused -/

/-- No error of code -2, and nothing that `llingr_init` has answered. -/
def Unrefused : BuildPc ι → Prop
  | .unlock (.error err) | .returned (.error err) => err.code ≠ -2
  | .rollback _ | .dropPublished _ _ => False
  | _ => True

/-- A conversion that finds no NUL goes on to the metrics. -/
theorem build_config [DecidableEq ι] {t : ι} {attempt : Attempt} {g g' : EngineShared ι}
    {pc : BuildPc ι} {move : BuildMove} (h : build t attempt g .config move = some (g', pc))
    (hmove : move ≠ .converted true) : pc = .realise := by
  cases move with
  | converted nul =>
      cases nul with
      | true => exact absurd rfl hmove
      | false =>
          obtain ⟨-, rfl⟩ := Prod.mk.inj (Option.some_inj.mp h)
          rfl
  | _ => cases h

theorem build_init [DecidableEq ι] {t : ι} {attempt : Attempt} {g : EngineShared ι}
    {r : EngineShared ι × BuildPc ι} {move : BuildMove}
    (h : build t attempt g .init move = some r) : ∃ rc text, move = .initReturns rc text := by
  cases move with
  | initReturns rc text => exact ⟨rc, text, rfl⟩
  | _ => cases h

theorem unrefused_step [DecidableEq ι] {t : ι} {attempt : Attempt} {g g' : EngineShared ι}
    {pc pc' : BuildPc ι} {move : BuildMove} (h : build t attempt g pc move = some (g', pc'))
    (hconverted : move ≠ .converted true) (hinit : ∀ rc text, move ≠ .initReturns rc text)
    (hpc : Unrefused pc) : Unrefused pc' := by
  cases build_cases h with
  | interiorNul => cases build_config h hconverted
  | initFailed rc text hrc =>
      obtain ⟨rc, text, hmove⟩ := build_init h
      exact absurd hmove (hinit rc text)
  | rollback err => exact hpc.elim
  | nothingPublished err => exact hpc.elim
  | dropPublished owner err => exact hpc.elim
  | unlock result =>
      cases result with
      | ok done => trivial
      | error err => exact hpc
  | deferred message h => exact show (-5 : ℤ) ≠ -2 by decide
  | abiMismatch reported => exact show (-1 : ℤ) ≠ -2 by decide
  | inited h => exact show (-1 : ℤ) ≠ -2 by decide
  | bindFailed text => exact show (-6 : ℤ) ≠ -2 by decide
  | refuse => exact show (-1 : ℤ) ≠ -2 by decide
  | _ => trivial

/-- Where a thread stands that has no refusal. -/
def ActUnrefused : BuildAct ι → Prop
  | .idle => True
  | .call _ pc => Unrefused pc

/-- No run refuses a call before `llingr_init` answers it. -/
theorem unrefused_of_exec [DecidableEq ι] {t : ι} {labels : List (ι × BuildMove)}
    (hmoves : ∀ move, (t, move) ∈ labels →
      move ≠ .converted true ∧ ∀ rc text, move ≠ .initReturns rc text)
    {c d : BuildCfg ι} (hc : ActUnrefused (c.threads t))
    (hrun : (buildMachine ι).exec c labels = some d) : ActUnrefused (d.threads t) := by
  induction labels generalizing c with
  | nil =>
      rw [Machine.exec_nil, Option.some_inj] at hrun
      exact hrun ▸ hc
  | cons label rest ih =>
      obtain ⟨e, hnext, hrest⟩ := Machine.exec_cons.mp hrun
      refine ih (fun move hmem => hmoves move (List.mem_cons_of_mem _ hmem)) ?_ hrest
      obtain ⟨u, move⟩ := label
      by_cases hu : u = t
      · subst hu
        obtain ⟨hconverted, hinit⟩ := hmoves move List.mem_cons_self
        have hstep := buildStep_of_next hnext
        rcases buildStep_cases hstep with ⟨attempt, _, hafter, _⟩ |
          ⟨attempt, pc, pc', hbefore, hafter, _⟩
        · rw [hafter]
          trivial
        · rw [hbefore] at hc hstep
          rw [hafter] at hstep ⊢
          obtain ⟨⟨g', pc''⟩, hbuild, heq⟩ := Option.map_eq_some_iff.mp hstep
          obtain ⟨rfl, rfl⟩ : g' = e.shared ∧ pc'' = pc' := by simpa using heq
          exact unrefused_step hbuild hconverted hinit hc
      · rw [(Program.next_eq_some hnext).2 t (Ne.symm hu)]
        exact hc

/-! ## A call that goes through -/

/-- The moves of a call for `b` alone, with a library of the crate's ABI version. -/
def acceptedMoves (b : Builder) : List BuildMove :=
  let realise : BuildMove := if b.metrics = some .serve then .bound none else .step
  [.call b.attempt, .step, .abi llingrAbiVersion, .step, .step, .converted false, realise, .step,
    .step, .step, .initReturns 0 "", .step, .step]

theorem solo_acceptedMoves [DecidableEq ι] (t : ι) (hdeferred : b.deferredError = none) :
    ∃ g l, (buildProgram ι).solo t (buildProgram ι).shared .idle (acceptedMoves b) = some (g, l) ∧
      l.result = some (.ok ()) := by
  unfold acceptedMoves Builder.attempt
  rw [hdeferred]
  cases b.metrics with
  | none => exact ⟨_, _, rfl, rfl⟩
  | some mode =>
      cases mode with
      | serve => exact ⟨_, _, rfl, rfl⟩
      | registry => exact ⟨_, _, rfl, rfl⟩

theorem builds_acceptedMoves (t : ι) :
    Builds durationMsCeil b t ((acceptedMoves b).map fun move => (t, move)) where
  called := by
    intro attempt hmem
    simp only [acceptedMoves] at hmem
    split_ifs at hmem <;> simpa using hmem
  converted := by
    intro nul hmem
    rw [cStringNew_document]
    simp only [acceptedMoves] at hmem
    split_ifs at hmem <;> simpa using hmem

/-- The refused call is what no call is. -/
theorem not_nulRefused [DecidableEq ι] {t : ι} {labels : List (ι × BuildMove)} {c : BuildCfg ι}
    (hrun : (buildMachine ι).exec (buildMachine ι).start labels = some c)
    (hbuilds : Builds durationMsCeil b t labels) : ¬ NulRefused t labels c := by
  intro hrefused
  have hmoves : ∀ move, (t, move) ∈ labels →
      move ≠ .converted true ∧ ∀ rc text, move ≠ .initReturns rc text := by
    refine fun move hmem => ⟨?_, ?_⟩
    · rintro rfl
      have hnul := hbuilds.converted true hmem
      rw [cStringNew_document] at hnul
      cases hnul
    · rintro rc text rfl
      exact hrefused.uninitialised rc text hmem
  have hresult := hrefused.result
  have hunrefused := unrefused_of_exec (c := (buildMachine ι).start) hmoves trivial hrun
  revert hresult hunrefused
  cases c.threads t with
  | idle => intro hresult; cases hresult
  | call attempt pc =>
      cases pc with
      | returned result =>
          rintro hresult hunrefused
          obtain rfl : result = .error interiorNulError := Option.some_inj.mp hresult
          exact hunrefused rfl
      | _ => intro hresult; cases hresult

theorem not_rejectsNul [DecidableEq ι] (t : ι) (hdeferred : b.deferredError = none) :
    ¬ RejectsNul durationMsCeil b ι := by
  intro hrejects
  obtain ⟨g, l, hsolo, hresult⟩ := solo_acceptedMoves b t hdeferred
  obtain ⟨c, hrun, -, hthread⟩ := Program.exec_of_solo (c := (buildMachine ι).start) hsolo
  have hbuilds := builds_acceptedMoves durationMsCeil b t
  refine not_nulRefused durationMsCeil b hrun hbuilds (hrejects t _ c hrun hbuilds
    ⟨false, ?_⟩ ?_)
  · exact List.mem_map.mpr ⟨.converted false, by simp [acceptedMoves], rfl⟩
  · rw [hthread, hresult]
    rfl

end

/-- A NUL in the configuration is never refused.  Whatever strings the builder holds, no call of
`build` in any run returns the error before it has called `llingr_init`, and some call that meets
no earlier failure returns without it. -/
theorem nul_never_refused {ι : Type*} [DecidableEq ι] (durationMsCeil : ℕ → ℕ) (b : Builder)
    (hdeferred : b.deferredError = none) (t : ι) :
    ¬ RejectsNul durationMsCeil b ι ∧
      ∀ (u : ι) (labels : List (ι × BuildMove)) (c : BuildCfg ι),
        (buildMachine ι).exec (buildMachine ι).start labels = some c →
        Builds durationMsCeil b u labels → ¬ NulRefused u labels c :=
  ⟨not_rejectsNul durationMsCeil b t hdeferred,
    fun _ _ _ hrun hbuilds => not_nulRefused durationMsCeil b hrun hbuilds⟩

/-- A topic with a NUL. -/
def nulTopic : Builder :=
  ((Builder.new "orders\x00").brokers "localhost:9092").consumerGroup "billing"

theorem nulTopic_hasNul : nulTopic.HasNul := ⟨"orders\x00", by decide, .inl rfl⟩

theorem nul_never_refused_topic :
    nulTopic.HasNul ∧ ¬ RejectsNul (fun ns => (ns + 999999) / 1000000) nulTopic ℕ :=
  ⟨nulTopic_hasNul, (nul_never_refused _ nulTopic rfl (0 : ℕ)).1⟩

theorem nulTopic_built :
    ¬ ∀ b : Builder, b.HasNul → b.deferredError = none →
      RejectsNul (fun ns => (ns + 999999) / 1000000) b ℕ :=
  fun hrejects => not_rejectsNul _ nulTopic 0 rfl (hrejects nulTopic nulTopic_hasNul rfl)

end LlingrKafka.Engine

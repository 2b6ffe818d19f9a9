import Mathlib.Algebra.Order.Ring.Int
import Mathlib.Data.Option.Basic
import Mathlib.Logic.Function.Basic

/-!
# Metric families

The families of `prometheus_client`, whose code is not in the repository: a `FamilyApi` is what
the sinks call of it, and what can be read back of each series.  `FamilyApi.Documented` is its
documented behaviour: a series exists from its first update on, updates of one label set leave
the others alone, and counters and observation counts are `u64`s that wrap.

`callLog` is a library that keeps what it was called with.
-/

namespace LlingrKafka.Metrics

/-- Families by the type of their labels: counters, gauges of a type of values, and histograms
of samples.  An update is `get_or_create(labels)` with the update of the metric. -/
structure FamilyApi (Sample : Type) where
  Counters : Type → Type
  Gauges : Type → Type → Type
  Histograms : Type → Type
  /-- `Family::default()`. -/
  newCounters : {κ : Type} → Counters κ
  newGauges : {κ α : Type} → Gauges κ α
  newHistograms : {κ : Type} → Histograms κ
  /-- `inc_by`; `inc` is that by one. -/
  incBy : {κ : Type} → [DecidableEq κ] → Counters κ → κ → ℕ → Counters κ
  set : {κ α : Type} → [DecidableEq κ] → Gauges κ α → κ → α → Gauges κ α
  observe : {κ : Type} → [DecidableEq κ] → Histograms κ → κ → Sample → Histograms κ
  /-- The value of a series, if it exists, and the observation count of a histogram. -/
  counter : {κ : Type} → Counters κ → κ → Option ℕ
  gauge : {κ α : Type} → Gauges κ α → κ → Option α
  count : {κ : Type} → Histograms κ → κ → Option ℕ

variable {Sample : Type}

/-- The documented behaviour. -/
structure FamilyApi.Documented (api : FamilyApi Sample) : Prop where
  counter_new : ∀ {κ : Type} (labels : κ), api.counter api.newCounters labels = none
  counter_incBy : ∀ {κ : Type} [DecidableEq κ] (fam : api.Counters κ) (labels labels' : κ) (n : ℕ),
    api.counter (api.incBy fam labels n) labels' =
      if labels = labels' then some (((api.counter fam labels').getD 0 + n) % 2 ^ 64)
      else api.counter fam labels'
  gauge_new : ∀ {κ α : Type} (labels : κ),
    api.gauge (api.newGauges : api.Gauges κ α) labels = none
  gauge_set : ∀ {κ α : Type} [DecidableEq κ] (fam : api.Gauges κ α) (labels labels' : κ)
      (value : α),
    api.gauge (api.set fam labels value) labels' =
      if labels = labels' then some value else api.gauge fam labels'
  count_new : ∀ {κ : Type} (labels : κ), api.count api.newHistograms labels = none
  count_observe : ∀ {κ : Type} [DecidableEq κ] (fam : api.Histograms κ) (labels labels' : κ)
      (sample : Sample),
    api.count (api.observe fam labels sample) labels' =
      if labels = labels' then some (((api.count fam labels').getD 0 + 1) % 2 ^ 64)
      else api.count fam labels'

/-! ## A library that logs -/

/-- The metric of each label set, if it exists. -/
abbrev Series (κ β : Type) := κ → Option β

section

variable {κ β : Type}

/-- An update of the metric of a label set. -/
def Series.update [DecidableEq κ] (fam : Series κ β) (labels : κ) (f : Option β → β) :
    Series κ β := Function.update fam labels (some (f (fam labels)))

theorem Series.update_apply [DecidableEq κ] (fam : Series κ β) (labels labels' : κ)
    (f : Option β → β) :
    fam.update labels f labels' =
      if labels = labels' then some (f (fam labels')) else fam labels' := by
  rw [update, Function.update_apply]
  by_cases h : labels = labels'
  · rw [if_pos h.symm, if_pos h, h]
  · rw [if_neg (Ne.symm h), if_neg h]

/-- The number of samples in 64 bits. -/
def sampleCount (fam : Series κ (List β)) (labels : κ) : Option ℕ :=
  (fam labels).map fun samples => samples.length % 2 ^ 64

theorem sampleCount_update [DecidableEq κ] (fam : Series κ (List β)) (labels labels' : κ)
    (sample : β) :
    sampleCount (fam.update labels fun samples => samples.getD [] ++ [sample]) labels' =
      if labels = labels' then some (((sampleCount fam labels').getD 0 + 1) % 2 ^ 64)
      else sampleCount fam labels' := by
  rw [sampleCount, Series.update_apply, sampleCount]
  split_ifs with h
  · cases fam labels' with
    | none => rfl
    | some samples =>
        rw [Option.getD_some, Option.map_some, Option.map_some, Option.getD_some, Nat.mod_add_mod,
          List.length_append, List.length_singleton]
  · rfl

end

/-- A library that keeps the value of every counter and gauge, and all samples. -/
def callLog (Sample : Type) : FamilyApi Sample where
  Counters κ := Series κ ℕ
  Gauges κ α := Series κ α
  Histograms κ := Series κ (List Sample)
  newCounters _ := none
  newGauges _ := none
  newHistograms _ := none
  incBy fam labels n := Series.update fam labels fun count => (count.getD 0 + n) % 2 ^ 64
  set fam labels value := Series.update fam labels fun _ => value
  observe fam labels sample := Series.update fam labels fun samples => samples.getD [] ++ [sample]
  counter fam labels := fam labels
  gauge fam labels := fam labels
  count fam labels := sampleCount fam labels

theorem documented_callLog : (callLog Sample).Documented where
  counter_new _ := rfl
  counter_incBy fam labels labels' n :=
    Series.update_apply fam labels labels' fun count => (count.getD 0 + n) % 2 ^ 64
  gauge_new _ := rfl
  gauge_set fam labels labels' value := Series.update_apply fam labels labels' fun _ => value
  count_new _ := rfl
  count_observe fam labels labels' sample := sampleCount_update fam labels labels' sample

/-- The samples a logged histogram has observed. -/
def loggedSamples {κ : Type} (fam : (callLog Sample).Histograms κ) (labels : κ) : List Sample :=
  Option.getD (fam labels) []

theorem loggedSamples_observe {κ : Type} [DecidableEq κ] (fam : (callLog Sample).Histograms κ)
    (labels : κ) (sample : Sample) :
    loggedSamples ((callLog Sample).observe fam labels sample) labels =
      loggedSamples fam labels ++ [sample] := by
  have hself := Series.update_apply fam labels labels fun samples => samples.getD [] ++ [sample]
  rw [if_pos rfl] at hself
  exact congrArg (Option.getD · []) hself

end LlingrKafka.Metrics

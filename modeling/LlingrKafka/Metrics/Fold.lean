import LlingrKafka.Metrics.Family
import Mathlib.Algebra.BigOperators.Group.List.Basic

/-!
# Families over a run

A family after any number of updates, read off the list of them: a counter is the sum of its
amounts in 64 bits, a gauge its last value, a histogram has observed as many samples as it was
given, and without an update a label set has no metric (`counter_incAll`, `gauge_setAll`,
`count_observeAll`).  The sinks instantiate these with the updates their packets ask for.
-/

namespace LlingrKafka.Metrics

/-- What the updates say about one label set, in order. -/
def selected {κ β : Type*} [DecidableEq κ] (steps : List (κ × β)) (labels : κ) : List β :=
  (steps.filter fun s => s.1 = labels).map Prod.snd

theorem selected_cons {κ β : Type*} [DecidableEq κ] (s : κ × β) (steps : List (κ × β))
    (labels : κ) :
    selected (s :: steps) labels =
      if s.1 = labels then s.2 :: selected steps labels else selected steps labels := by
  unfold selected
  rw [List.filter_cons]
  by_cases hlabels : s.1 = labels
  · rw [if_pos (by simpa using hlabels), if_pos hlabels, List.map_cons]
  · rw [if_neg (by simpa using hlabels), if_neg hlabels]

/-- Updates that were made of other things, by label and value. -/
theorem selected_map {κ β α : Type*} [DecidableEq κ] (label : α → κ) (value : α → β)
    (items : List α) (labels : κ) :
    selected (items.map fun a => (label a, value a)) labels =
      (items.filter fun a => label a = labels).map value := by
  unfold selected
  rw [List.filter_map, List.map_map]
  rfl

/-- Steps that each add an amount to what one label set reads, in 64 bits. -/
theorem foldl_counted {κ β F : Type*} [DecidableEq κ] {add : F → κ × β → F} (read : F → Option ℕ)
    (amount : β → ℕ) (labels : κ)
    (hadd : ∀ fam s, read (add fam s) =
      if s.1 = labels then some (((read fam).getD 0 + amount s.2) % 2 ^ 64) else read fam)
    (fam : F) (steps : List (κ × β)) :
    read (steps.foldl add fam) =
      if selected steps labels = [] then read fam
      else some (((read fam).getD 0 + ((selected steps labels).map amount).sum) % 2 ^ 64) := by
  induction steps generalizing fam with
  | nil => rfl
  | cons s steps ih =>
      rw [selected_cons, List.foldl_cons, ih, hadd]
      by_cases hlabels : s.1 = labels
      · rw [if_pos hlabels, if_pos hlabels, if_neg (List.cons_ne_nil _ _), Option.getD_some,
          List.map_cons, List.sum_cons]
        split_ifs with hnone
        · rw [hnone, List.map_nil, List.sum_nil, Nat.add_zero]
        · rw [Nat.mod_add_mod, Nat.add_assoc]
      · rw [if_neg hlabels, if_neg hlabels]

namespace FamilyApi

variable {Sample κ α : Type} [DecidableEq κ] (api : FamilyApi Sample)

/-- The increments, one after the other. -/
def incAll (fam : api.Counters κ) (steps : List (κ × ℕ)) : api.Counters κ :=
  steps.foldl (fun fam s => api.incBy fam s.1 s.2) fam

/-- The writes of a gauge, one after the other. -/
def setAll (fam : api.Gauges κ α) (steps : List (κ × α)) : api.Gauges κ α :=
  steps.foldl (fun fam s => api.set fam s.1 s.2) fam

/-- The observations of a histogram, one after the other. -/
def observeAll (fam : api.Histograms κ) (steps : List (κ × Sample)) : api.Histograms κ :=
  steps.foldl (fun fam s => api.observe fam s.1 s.2) fam

theorem incAll_append (fam : api.Counters κ) (steps steps' : List (κ × ℕ)) :
    api.incAll fam (steps ++ steps') = api.incAll (api.incAll fam steps) steps' :=
  List.foldl_append

theorem setAll_append (fam : api.Gauges κ α) (steps steps' : List (κ × α)) :
    api.setAll fam (steps ++ steps') = api.setAll (api.setAll fam steps) steps' :=
  List.foldl_append

theorem observeAll_append (fam : api.Histograms κ) (steps steps' : List (κ × Sample)) :
    api.observeAll fam (steps ++ steps') = api.observeAll (api.observeAll fam steps) steps' :=
  List.foldl_append

variable {api} (hapi : api.Documented)

include hapi

/-- A counter holds the sum of its increments in 64 bits. -/
theorem counter_incAll (fam : api.Counters κ) (steps : List (κ × ℕ)) (labels : κ) :
    api.counter (api.incAll fam steps) labels =
      if selected steps labels = [] then api.counter fam labels
      else some (((api.counter fam labels).getD 0 + (selected steps labels).sum) % 2 ^ 64) := by
  have hfold := foldl_counted (fun fam => api.counter fam labels) id labels
    (fun fam s => hapi.counter_incBy fam s.1 labels s.2) fam steps
  rw [List.map_id] at hfold
  exact hfold

/-- A gauge holds the last value it was set to. -/
theorem gauge_setAll (fam : api.Gauges κ α) (steps : List (κ × α)) (labels : κ) :
    api.gauge (api.setAll fam steps) labels =
      (selected steps labels).getLast?.or (api.gauge fam labels) := by
  induction steps generalizing fam with
  | nil => rfl
  | cons s steps ih =>
      have hrest := ih (api.set fam s.1 s.2)
      rw [selected_cons, setAll, List.foldl_cons, ← setAll, hrest, hapi.gauge_set]
      by_cases hlabels : s.1 = labels
      · rw [if_pos hlabels, if_pos hlabels, List.getLast?_cons]
        cases (selected steps labels).getLast? <;> rfl
      · rw [if_neg hlabels, if_neg hlabels]

/-- A histogram has observed its samples, counted in 64 bits. -/
theorem count_observeAll (fam : api.Histograms κ) (steps : List (κ × Sample)) (labels : κ) :
    api.count (api.observeAll fam steps) labels =
      if selected steps labels = [] then api.count fam labels
      else some (((api.count fam labels).getD 0 + (selected steps labels).length) % 2 ^ 64) := by
  have hfold := foldl_counted (fun fam => api.count fam labels) (fun _ => 1) labels
    (fun fam s => hapi.count_observe fam s.1 labels s.2) fam steps
  simp only [List.map_const', List.sum_replicate_nat, Nat.mul_one] at hfold
  exact hfold

end FamilyApi

end LlingrKafka.Metrics

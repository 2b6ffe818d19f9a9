import LlingrKafka.Bridge.Linearized
import Mathlib.Data.List.Induction

/-!
# The order the registration serves its calls in

`registration_simulation` gives every run of the code a run of the one-step object
with the same calls, reports and returns.  Here that run is read as one sequential
order (`Linearization`): the calls served, in which every call has one place at
most, every return carries the answer of its place, and a call that had returned
before another one was made comes first.
-/

namespace LlingrKafka.Bridge

variable {ι φ : Type*}

/-- The object after a list of calls, one after the other. -/
def replay (order : List (ι × RegistrationCall φ)) : Registry φ :=
  order.foldl (fun reg entry => (reg.apply entry.2).1) ⟨.empty, false⟩

/-- The call has its place in the order, and the answer it gets there. -/
def ServedIn (order : List (ι × RegistrationCall φ)) (t : ι) (call : RegistrationCall φ)
    (result : RegistrationResult φ) : Prop :=
  ∃ before after, order = before ++ (t, call) :: after ∧
    result = ((replay before).apply call).2

/-- `events`, with what the registration ends as, is explained by serving the calls
one after the other in this order. -/
structure Linearization (events : List (RegistrationEvent ι φ))
    (order : List (ι × RegistrationCall φ)) (reg : Registry φ) : Prop where
  /-- A goroutine made one call at most. -/
  single : ∀ t call call', .call t call ∈ events → .call t call' ∈ events → call = call'
  /-- Every entry is a call that was made, and no call has two. -/
  made : ∀ t call, (t, call) ∈ order → .call t call ∈ events
  once : (order.map Prod.fst).Nodup
  /-- What is published is the outcome of the whole order. -/
  outcome : replay order = reg
  /-- A call that has returned was answered what its place in the order gives, and a setter
  that was refused had reported it. -/
  answers : ∀ t result, .ret t result ∈ events → ∃ call, ServedIn order t call result ∧
    ∀ line, call.reports result = some line → [.stderr line, .ret t result].Sublist events
  /-- A call that had returned before another was made comes before it. -/
  realTime : ∀ t result u call, [.ret t result, .call u call].Sublist events →
    u ∈ order.map Prod.fst → [t, u].Sublist (order.map Prod.fst)

theorem ServedIn.append {order : List (ι × RegistrationCall φ)} {t : ι}
    {call : RegistrationCall φ} {result : RegistrationResult φ} (h : ServedIn order t call result)
    (rest : List (ι × RegistrationCall φ)) : ServedIn (order ++ rest) t call result := by
  obtain ⟨before, after, rfl, hresult⟩ := h
  exact ⟨before, after ++ rest, by simp, hresult⟩

theorem ServedIn.mem {order : List (ι × RegistrationCall φ)} {t : ι} {call : RegistrationCall φ}
    {result : RegistrationResult φ} (h : ServedIn order t call result) :
    t ∈ order.map Prod.fst := by
  obtain ⟨before, after, rfl, _⟩ := h
  simp

/-- The last entry comes after every other one. -/
theorem pair_sublist_snoc {β : Type*} {x y z : β} {l : List β} :
    [x, y].Sublist (l ++ [z]) ↔ [x, y].Sublist l ∨ x ∈ l ∧ y = z := by
  constructor
  · intro h
    obtain ⟨first, second, hsplit, hfirst, hsecond⟩ := List.sublist_append_iff.mp h
    rcases List.sublist_singleton.mp hsecond with rfl | rfl
    · rw [List.append_nil] at hsplit
      exact .inl (hsplit ▸ hfirst)
    · obtain ⟨rfl, hlast⟩ := List.append_inj' (show [x] ++ [y] = first ++ [z] from hsplit) rfl
      exact .inr ⟨List.singleton_sublist.mp hfirst, List.singleton_inj.mp hlast⟩
  · rintro (h | ⟨hx, rfl⟩)
    · exact h.trans (List.sublist_append_left l [z])
    · exact (List.singleton_sublist.mpr hx).append (.refl [y])

/-- What the events and the order say of a caller. -/
def CallerKnows (events : List (RegistrationEvent ι φ)) (order : List (ι × RegistrationCall φ))
    (t : ι) : CallerAct φ → Prop
  | .idle => (∀ call, .call t call ∉ events) ∧ t ∉ order.map Prod.fst
  | .called call => .call t call ∈ events ∧ t ∉ order.map Prod.fst
  | .served call result => ServedIn order t call result
  | .returning result => ∃ call, ServedIn order t call result ∧
      ∀ line, call.reports result = some line → .stderr line ∈ events
  | .returned => True

theorem CallerKnows.mono {events : List (RegistrationEvent ι φ)}
    {order : List (ι × RegistrationCall φ)} {t : ι} {m : CallerAct φ}
    (h : CallerKnows events order t m) {seen : List (RegistrationEvent ι φ)}
    (hseen : ∀ call, .call t call ∉ seen)
    {rest : List (ι × RegistrationCall φ)} (hrest : t ∉ rest.map Prod.fst) :
    CallerKnows (events ++ seen) (order ++ rest) t m := by
  have hnot : t ∉ order.map Prod.fst → t ∉ (order ++ rest).map Prod.fst := by
    intro hfirst
    rw [List.map_append, List.mem_append]
    exact not_or.mpr ⟨hfirst, hrest⟩
  cases m with
  | idle =>
      refine ⟨fun call => ?_, hnot h.2⟩
      rw [List.mem_append]
      exact not_or.mpr ⟨h.1 call, hseen call⟩
  | called call => exact ⟨List.mem_append_left seen h.1, hnot h.2⟩
  | served call result => exact h.append rest
  | returning result =>
      obtain ⟨call, hserved, hreported⟩ := h
      exact ⟨call, hserved.append rest, fun line h => List.mem_append_left seen (hreported line h)⟩
  | returned => trivial

/-- An event that is neither the return of an unserved call nor the call of a served
one. -/
theorem Linearization.event {events : List (RegistrationEvent ι φ)}
    {order : List (ι × RegistrationCall φ)} {reg : Registry φ} (h : Linearization events order reg)
    {e : RegistrationEvent ι φ}
    (hret : ∀ t result, e = .ret t result → ∃ call, ServedIn order t call result ∧
      ∀ line, call.reports result = some line → .stderr line ∈ events)
    (hcall : ∀ u call, e = .call u call →
      (∀ call', .call u call' ∉ events) ∧ u ∉ order.map Prod.fst) :
    Linearization (events ++ [e]) order reg where
  single := by
    intro t call call' hmem hmem'
    rcases List.mem_append.mp hmem with hold | hnew <;>
      rcases List.mem_append.mp hmem' with hold' | hnew'
    · exact h.single t call call' hold hold'
    · exact absurd hold ((hcall t call' (List.mem_singleton.mp hnew').symm).1 call)
    · exact absurd hold' ((hcall t call (List.mem_singleton.mp hnew).symm).1 call')
    · have heq := (List.mem_singleton.mp hnew).trans (List.mem_singleton.mp hnew').symm
      exact (RegistrationEvent.call.inj heq).2
  made := by
    intro t call hmem
    exact List.mem_append_left _ (h.made t call hmem)
  once := h.once
  outcome := h.outcome
  answers := by
    intro t result hmem
    rcases List.mem_append.mp hmem with hold | hnew
    · obtain ⟨call, hserved, hreported⟩ := h.answers t result hold
      exact ⟨call, hserved, fun line h => (hreported line h).trans (List.sublist_append_left _ _)⟩
    · obtain rfl : .ret t result = e := List.mem_singleton.mp hnew
      obtain ⟨call, hserved, hreported⟩ := hret t result rfl
      exact ⟨call, hserved, fun line h => pair_sublist_snoc.mpr (.inr ⟨hreported line h, rfl⟩)⟩
  realTime := by
    intro t result u call hpair hu
    rcases pair_sublist_snoc.mp hpair with hold | ⟨_, hnew⟩
    · exact h.realTime t result u call hold hu
    · exact absurd hu (hcall u call hnew.symm).2

/-- Serving a call that was made and not served yet. -/
theorem Linearization.serve {events : List (RegistrationEvent ι φ)}
    {order : List (ι × RegistrationCall φ)} {reg : Registry φ} (h : Linearization events order reg)
    {t : ι} {call : RegistrationCall φ} (hmade : .call t call ∈ events)
    (hnot : t ∉ order.map Prod.fst) :
    Linearization events (order ++ [(t, call)]) (reg.apply call).1 where
  single := h.single
  made := by
    intro u call' hmem
    rcases List.mem_append.mp hmem with hold | hnew
    · exact h.made u call' hold
    · obtain ⟨rfl, rfl⟩ := Prod.mk.inj (List.mem_singleton.mp hnew)
      exact hmade
  once := by
    rw [List.map_append]
    refine List.nodup_append.mpr ⟨h.once, List.pairwise_singleton _ t, ?_⟩
    intro u hold v hnew heq
    obtain rfl : v = t := List.mem_singleton.mp hnew
    exact hnot (heq ▸ hold)
  outcome := by
    rw [replay, List.foldl_append, ← h.outcome]
    rfl
  answers := by
    intro u result hmem
    obtain ⟨call', hserved, hreported⟩ := h.answers u result hmem
    exact ⟨call', hserved.append _, hreported⟩
  realTime := by
    intro u result v call' hpair hv
    rw [List.map_append] at hv ⊢
    rcases List.mem_append.mp hv with hold | hnew
    · exact (h.realTime u result v call' hpair hold).trans (List.sublist_append_left _ _)
    · have hret : .ret u result ∈ events := hpair.subset List.mem_cons_self
      obtain ⟨_, hserved, _⟩ := h.answers u result hret
      exact pair_sublist_snoc.mpr (.inr ⟨hserved.mem, List.mem_singleton.mp hnew⟩)

/-- The call a step of the object serves. -/
def registryServes (a : CallerCfg ι φ) (label : ι × CallerMove φ) :
    Option (ι × RegistrationCall φ) :=
  match a.threads label.1, label.2 with
  | .called call, .serve => some (label.1, call)
  | _, _ => none

/-- One step of the object. -/
theorem linearization_step [DecidableEq ι] {a b : CallerCfg ι φ} {t : ι} {move : CallerMove φ}
    {events : List (RegistrationEvent ι φ)} {order : List (ι × RegistrationCall φ)}
    (hlin : Linearization events order b.shared)
    (hknows : ∀ u, CallerKnows events order u (b.threads u))
    (hnext : (registryMachine ι φ).next b (t, move) = some a) :
    Linearization (events ++ (registrySee b (t, move)).toList)
        (order ++ (registryServes b (t, move)).toList) a.shared ∧
      ∀ u, CallerKnows (events ++ (registrySee b (t, move)).toList)
        (order ++ (registryServes b (t, move)).toList) u (a.threads u) := by
  obtain ⟨hstep, hothers⟩ := Program.next_eq_some hnext
  -- a step of `t` shows and serves only calls of `t`
  have hserves : ∀ u, u ≠ t → u ∉ (registryServes b (t, move)).toList.map Prod.fst := by
    intro u hu hmem
    unfold registryServes at hmem
    split at hmem
    · exact hu (by simpa using hmem)
    · simp at hmem
  have hsees : ∀ u, u ≠ t → ∀ call, .call u call ∉ (registrySee b (t, move)).toList := by
    intro u hu call hmem
    unfold registrySee at hmem
    split at hmem
    · simp only [Option.toList, List.mem_singleton] at hmem
      exact hu (RegistrationEvent.call.inj hmem).1
    · simp at hmem
    · simp at hmem
    · simp at hmem
  -- so what the others know stays, and only `t` is left
  suffices hown : Linearization (events ++ (registrySee b (t, move)).toList)
        (order ++ (registryServes b (t, move)).toList) a.shared ∧
      CallerKnows (events ++ (registrySee b (t, move)).toList)
        (order ++ (registryServes b (t, move)).toList) t (a.threads t) by
    refine ⟨hown.1, fun u => ?_⟩
    rcases eq_or_ne u t with rfl | hu
    · exact hown.2
    · rw [hothers u hu]
      exact (hknows u).mono (hsees u hu) (hserves u hu)
  have hmine := hknows t
  change callerStep t b.shared (b.threads t) move = some (a.shared, a.threads t) at hstep
  generalize hg : a.shared = reg at hstep ⊢
  generalize hm : a.threads t = m at hstep ⊢
  cases hl : b.threads t with
  | idle =>
      rw [hl] at hstep hmine
      cases move with
      | call call =>
          obtain ⟨rfl, rfl⟩ := Prod.mk.inj (Option.some_inj.mp hstep)
          simp only [registrySee, registryServes, hl, Option.toList, List.append_nil]
          refine ⟨hlin.event ?_ ?_, List.mem_append_right _ (List.mem_singleton_self _), hmine.2⟩
          · intro u result heq
            cases heq
          · intro u call' heq
            cases heq
            exact hmine
      | _ => cases hstep
  | called call =>
      rw [hl] at hstep hmine
      cases move with
      -- the served call goes to the end of the order, behind everything that has returned
      | serve =>
          obtain ⟨rfl, rfl⟩ := Prod.mk.inj (Option.some_inj.mp hstep)
          simp only [registrySee, registryServes, hl, Option.toList, List.append_nil]
          refine ⟨hlin.serve hmine.1 hmine.2, order, [], rfl, ?_⟩
          rw [hlin.outcome]
      | _ => cases hstep
  | served call result =>
      rw [hl] at hstep hmine
      cases move with
      | report =>
          obtain ⟨rfl, rfl⟩ := Prod.mk.inj (Option.some_inj.mp hstep)
          simp only [registrySee, registryServes, hl, Option.toList, List.append_nil]
          -- only calls with a visible return add to what is seen
          cases hreports : call.reports result with
          | none =>
              rw [Option.map_none, List.append_nil]
              refine ⟨hlin, call, hmine, fun line hline => ?_⟩
              rw [hreports] at hline
              cases hline
          | some line =>
              refine ⟨hlin.event ?_ ?_, call, hmine, fun line' hline => ?_⟩
              · intro u result heq
                cases heq
              · intro u call' heq
                cases heq
              · rw [hreports, Option.some_inj] at hline
                rw [hline]
                exact List.mem_append_right _ (List.mem_singleton_self _)
      | _ => cases hstep
  | returning result =>
      rw [hl] at hstep hmine
      cases move with
      | ret =>
          obtain ⟨rfl, rfl⟩ := Prod.mk.inj (Option.some_inj.mp hstep)
          simp only [registrySee, registryServes, hl, Option.toList, List.append_nil]
          refine ⟨hlin.event ?_ ?_, trivial⟩
          · intro u result heq
            cases heq
            exact hmine
          · intro u call' heq
            cases heq
      | _ => cases hstep
  | returned =>
      rw [hl] at hstep
      cases hstep

/-- What the object has shown and served, in any of its runs. -/
theorem linearization_of_run [DecidableEq ι] {labels : List (ι × CallerMove φ)}
    {a : CallerCfg ι φ}
    (hrun : (registryMachine ι φ).exec (registryMachine ι φ).start labels = some a) :
    let events := (registryMachine ι φ).trace registrySee (registryMachine ι φ).start labels
    let order := (registryMachine ι φ).trace registryServes (registryMachine ι φ).start labels
    Linearization events order a.shared ∧ ∀ t, CallerKnows events order t (a.threads t) := by
  induction labels using List.reverseRecOn generalizing a with
  | nil =>
      rw [Machine.exec_nil, Option.some_inj] at hrun
      subst hrun
      refine ⟨⟨?_, ?_, List.nodup_nil, rfl, ?_, ?_⟩, fun t => ⟨fun _ => List.not_mem_nil,
        List.not_mem_nil⟩⟩
      · intro t call call' hmem
        cases hmem
      · intro t call hmem
        cases hmem
      · intro t result hmem
        cases hmem
      · intro t result u call _ hu
        cases hu
  | append_singleton labels label ih =>
      obtain ⟨b, hbefore, hlast⟩ := Machine.exec_append.mp hrun
      obtain ⟨_, hnext, hnil⟩ := Machine.exec_cons.mp hlast
      rw [Machine.exec_nil, Option.some_inj] at hnil
      subst hnil
      obtain ⟨hlin, hknows⟩ := ih hbefore
      dsimp only
      rw [Machine.trace_append hbefore, Machine.trace_append hbefore, Machine.trace_cons hnext,
        Machine.trace_cons hnext, Machine.trace_nil, Machine.trace_nil, List.append_nil,
        List.append_nil]
      exact linearization_step hlin hknows hnext

section

variable [DecidableEq ι] {labels : List (ι × RegistrationMove φ)} {c : RegistrationCfg ι φ}

/-- **The registration is linearizable** under every interleaving. -/
theorem registration_linearizable
    (hrun : (registrationMachine ι φ).exec (registrationMachine ι φ).start labels = some c) :
    ∃ order reg,
      Linearization
        ((registrationMachine ι φ).trace registrationSee (registrationMachine ι φ).start labels)
        order reg ∧
      c.shared.callbacksSealed = reg.sealed ∧
      c.shared.deref c.shared.registeredCallbacks = some reg.table := by
  obtain ⟨answer, a, hanswer, hseen, hlink⟩ :=
    registration_simulation.run registration_simulation.start hrun
  obtain ⟨hlin, _⟩ := linearization_of_run hanswer
  rw [hseen] at hlin
  exact ⟨_, a.shared, hlin, hlink.sealed.symm, hlink.table.1⟩

/-- Two setters overlap with a reader, and a third comes after the seal. -/
def lateSetterRun : List (ℕ × RegistrationMove ℕ) :=
  [(0, .call (.set .log (some 7))), (1, .call (.set .process (some 8))), (0, .step), (0, .step),
    (0, .step), (0, .step), (0, .step), (0, .step), (4, .call .load), (4, .step), (0, .step),
    (1, .step), (1, .step), (1, .step), (1, .step), (1, .step), (1, .step), (1, .step), (0, .step),
    (2, .call .sealCallbacks), (2, .step), (2, .step), (3, .call (.set .log (some 9))), (2, .step),
    (3, .step), (3, .step), (3, .step), (3, .step), (3, .step), (4, .step), (4, .step), (2, .step),
    (1, .step)]

theorem registration_linearizable_lateSetter :
    ∃ c, (registrationMachine ℕ ℕ).exec (registrationMachine ℕ ℕ).start lateSetterRun = some c ∧
      ∃ order reg,
        Linearization ((registrationMachine ℕ ℕ).trace registrationSee
          (registrationMachine ℕ ℕ).start lateSetterRun) order reg ∧
        c.shared.callbacksSealed = reg.sealed ∧
        c.shared.deref c.shared.registeredCallbacks = some reg.table :=
  ⟨_, rfl, registration_linearizable rfl⟩

end

end LlingrKafka.Bridge

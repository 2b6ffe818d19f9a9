import LlingrKafka.Options.NoSilentNoOp

/-!
# Millisecond options

The options in milliseconds are checked for their sign as integers, and for their range as
durations.  The multiplication between the two wraps at 64 bits, so what is checked and
handed on is the number written exactly when its nanoseconds fit (`millis_exact_iff`): up to
`maxMillis`, about 292 years.  Beyond that a bail that looks like a very long one can be
switched off, and a pause can be negative.
-/

namespace LlingrKafka.Options

open Checks FixedWidth Security

/-- The largest number of milliseconds whose nanoseconds fit in 64 bits. -/
def maxMillis : ℤ := 9223372036854

/-- The options in milliseconds, by the convention of their names. -/
def IsMillisKey (key : String) : Prop := ['.', 'm', 's'] <:+ key.toList

instance (key : String) : Decidable (IsMillisKey key) :=
  inferInstanceAs (Decidable (_ <:+ _))

/-- The duration a client option sets. -/
def ClientOpt.duration? : ClientOpt → Option ℤ
  | sessionTimeout d | heartbeatInterval d | rebalanceTimeout d | fetchMaxWait d
  | metadataMaxAge d | dialTimeout d | connIdleTimeout d | retryTimeout d => some d
  | _ => none

/-- The key an adapter option comes from. -/
def AdapterOption.key : AdapterOption → String
  | pollErrorBailAfter _ => "llingr.poll.error.bail.after.ms"
  | pollErrorLogInterval _ => "llingr.poll.error.log.interval.ms"
  | pollErrorBackoff _ => "llingr.poll.error.backoff.ms"

/-- The duration an adapter option sets. -/
def AdapterOption.duration : AdapterOption → ℤ
  | pollErrorBailAfter d | pollErrorLogInterval d | pollErrorBackoff d => d

/-- The documented range of an option, in milliseconds. -/
def DocumentedRange (key : String) (ms : ℤ) : Prop :=
  if key = "llingr.poll.error.bail.after.ms" then ms = 0 ∨ (60000 ≤ ms ∧ ms ≤ 3600000)
  else if key = "llingr.poll.error.backoff.ms" then 0 ≤ ms ∧ ms ≤ 5000
  else 0 < ms

/-- The value of a key is handed on as the duration `d`: to the adapter, or to the client as
what its row makes of it. -/
inductive AppliedAs {Roots Cert : Type} (r : FranzOptions Roots Cert) (key value : String)
    (d : ℤ) : Prop
  | adapter (o : AdapterOption) (hmem : o ∈ r.pollErrorOpts) (hkey : o.key = key)
      (hduration : o.duration = d)
  | client (opt : ClientOpt) (hmem : .client opt ∈ r.opts)
      (hrow : Translates (key, value) (some opt)) (hduration : opt.duration? = some d)

/-! ## The product -/

/-- The nanoseconds of a number of milliseconds are exact up to `maxMillis`. -/
theorem milliseconds_eq_iff {ms : ℤ} (hms : 0 ≤ ms) :
    milliseconds ms = ms * 1000000 ↔ ms ≤ maxMillis := by
  rw [milliseconds, wrap_eq_self_iff (by decide), Fits, maxMillis]
  constructor
  · rintro ⟨-, hupper⟩
    omega
  · intro hle
    exact ⟨by omega, by omega⟩

theorem millisOption_eq_ok {key value : String} {d : ℤ} (h : millisOption key value = .ok d) :
    ∃ ms, Text.atoi value = some ms ∧ 0 < ms ∧ d = milliseconds ms := by
  unfold millisOption at h
  split at h
  · rename_i ms hvalue
    split_ifs at h with hsign
    exact ⟨ms, hvalue, not_le.mp hsign, (Except.ok.inj h).symm⟩
  · cases h

theorem nonNegativeMillisOption_eq_ok {key value : String} {d : ℤ}
    (h : nonNegativeMillisOption key value = .ok d) :
    ∃ ms, Text.atoi value = some ms ∧ 0 ≤ ms ∧ d = milliseconds ms := by
  unfold nonNegativeMillisOption at h
  split at h
  · rename_i ms hvalue
    split_ifs at h with hsign
    exact ⟨ms, hvalue, not_lt.mp hsign, (Except.ok.inj h).symm⟩
  · cases h

/-- A positive number of milliseconds, as a duration. -/
theorem millisOption_exact {key value : String} {d : ℤ} (h : millisOption key value = .ok d) :
    ∃ ms, Text.atoi value = some ms ∧ ((d = ms * 1000000 ∧ 0 < d) ↔ ms ≤ maxMillis) := by
  obtain ⟨ms, hvalue, hpos, rfl⟩ := millisOption_eq_ok h
  have hexact := milliseconds_eq_iff (Int.le_of_lt hpos)
  refine ⟨ms, hvalue, fun h => hexact.mp h.1, fun hle => ?_⟩
  have heq := hexact.mpr hle
  exact ⟨heq, by omega⟩

/-- A number of milliseconds that may be zero, as a duration. -/
theorem nonNegativeMillisOption_exact {key value : String} {d : ℤ}
    (h : nonNegativeMillisOption key value = .ok d) :
    ∃ ms, Text.atoi value = some ms ∧
      ((d = ms * 1000000 ∧ 0 ≤ d ∧ (d = 0 ↔ ms = 0)) ↔ ms ≤ maxMillis) := by
  obtain ⟨ms, hvalue, hnonneg, rfl⟩ := nonNegativeMillisOption_eq_ok h
  have hexact := milliseconds_eq_iff hnonneg
  refine ⟨ms, hvalue, fun h => hexact.mp h.1, fun hle => ?_⟩
  have heq := hexact.mpr hle
  exact ⟨heq, by omega, by omega⟩

/-! ## The adapter options -/

/-- An adapter option of a key carries exactly what the value says, within the documented
range, when the product is exact. -/
def ExactOption (key value : String) (o : AdapterOption) : Prop :=
  o.key = key ∧ ∃ ms, Text.atoi value = some ms ∧
    ((o.duration = ms * 1000000 ∧ DocumentedRange key ms) ↔ ms ≤ maxMillis)

/-- What is left to show of an option that carries its milliseconds: its range. -/
theorem exactOption_of_millis {key value : String} {o : AdapterOption} {ms : ℤ}
    (hkey : o.key = key) (hvalue : Text.atoi value = some ms) (hnonneg : 0 ≤ ms)
    (hduration : o.duration = milliseconds ms)
    (hrange : milliseconds ms = ms * 1000000 → DocumentedRange key ms) :
    ExactOption key value o := by
  have hexact := milliseconds_eq_iff hnonneg
  refine ⟨hkey, ms, hvalue, fun h => hexact.mp (hduration.symm.trans h.1), fun hle => ?_⟩
  have heq := hexact.mpr hle
  exact ⟨hduration.trans heq, hrange heq⟩

/-- An option with bounds on its duration. -/
theorem bounded_eq_ok {key value : String} {outside : ℤ → Prop} [DecidablePred outside]
    {fault : ℤ → OptionFault} {make : ℤ → AdapterOption} {o : AdapterOption}
    (h : (do
      let d ← nonNegativeMillisOption key value
      reject (outside d) (fault d)
      .ok (make d)) = .ok o) :
    ∃ ms, Text.atoi value = some ms ∧ 0 ≤ ms ∧ ¬ outside (milliseconds ms) ∧
      o = make (milliseconds ms) := by
  obtain ⟨d, hparse, h⟩ := bind_eq_ok.mp h
  obtain ⟨_, hreject, h⟩ := bind_eq_ok.mp h
  obtain ⟨ms, hvalue, hnonneg, rfl⟩ := nonNegativeMillisOption_eq_ok hparse
  exact ⟨ms, hvalue, hnonneg, reject_eq_ok.mp hreject, (Except.ok.inj h).symm⟩

/-- The bail is off or within its bounds when the product is exact; otherwise a value above
the bounds may switch it off. -/
theorem pollErrorBailAfter_exact {value : String} {o : AdapterOption}
    (h : pollErrorBailAfter value = .ok o) :
    ExactOption "llingr.poll.error.bail.after.ms" value o := by
  obtain ⟨ms, hvalue, hnonneg, hchecked, rfl⟩ := bounded_eq_ok h
  refine exactOption_of_millis rfl hvalue hnonneg rfl fun hexact => ?_
  rw [hexact, minPollErrorBailAfter, maxPollErrorBailAfter] at hchecked
  rw [DocumentedRange, if_pos rfl]
  omega

theorem pollErrorLogInterval_exact {value : String} {o : AdapterOption}
    (h : pollErrorLogInterval value = .ok o) :
    ExactOption "llingr.poll.error.log.interval.ms" value o := by
  obtain ⟨d, hparse, rfl⟩ := map_eq_ok.mp h
  obtain ⟨ms, hvalue, hpos, rfl⟩ := millisOption_eq_ok hparse
  refine exactOption_of_millis rfl hvalue (Int.le_of_lt hpos) rfl fun _ => ?_
  rw [DocumentedRange, if_neg (by decide), if_neg (by decide)]
  exact hpos

/-- The pause is within its bounds when the product is exact; otherwise it may be
negative. -/
theorem pollErrorBackoff_exact {value : String} {o : AdapterOption}
    (h : pollErrorBackoff value = .ok o) :
    ExactOption "llingr.poll.error.backoff.ms" value o := by
  obtain ⟨ms, hvalue, hnonneg, hchecked, rfl⟩ := bounded_eq_ok h
  refine exactOption_of_millis rfl hvalue hnonneg rfl fun hexact => ?_
  rw [hexact, maxPollErrorBackoff] at hchecked
  rw [DocumentedRange, if_neg (by decide), if_pos rfl]
  omega

/-! ## The client options -/

/-- Every millisecond key of the table is parsed as one, and its option carries the result. -/
theorem millisRow_of_mem {row : String × Translator} (h : row ∈ franzOptionKeys)
    (hkey : IsMillisKey row.1) :
    ∃ opt : ℤ → ClientOpt, row.2 = (parsed millisOption row.1 fun d => some (opt d)).2 ∧
      ∀ d, (opt d).duration? = some d := by
  simp only [franzOptionKeys, List.mem_cons, List.not_mem_nil, or_false] at h
  rcases h with rfl | rfl | rfl | rfl | rfl | rfl | rfl | rfl | rfl | rfl | rfl | rfl | rfl |
    rfl | rfl | rfl | rfl | rfl | rfl | rfl | rfl | rfl | rfl
  all_goals first
    | exact absurd hkey (by decide)
    | exact ⟨_, rfl, fun _ => rfl⟩

/-- What the row of a millisecond key makes of its value. -/
theorem duration_of_translates {key value : String} {opt : Option ClientOpt}
    (hkey : IsMillisKey key) (h : Translates (key, value) opt) :
    ∃ ms, Text.atoi value = some ms ∧ 0 < ms ∧
      ∃ o, opt = some o ∧ o.duration? = some (milliseconds ms) := by
  obtain ⟨translate, hlookup, htranslate⟩ := h
  obtain ⟨opt', hrow, hduration⟩ := millisRow_of_mem (mem_of_translator hlookup) hkey
  rw [show translate = _ from hrow] at htranslate
  obtain ⟨d, hparse, rfl⟩ := parsed_eq_ok.mp htranslate
  obtain ⟨ms, hvalue, hpos, rfl⟩ := millisOption_eq_ok hparse
  exact ⟨ms, hvalue, hpos, opt' (milliseconds ms), rfl, hduration _⟩

section

variable {Roots Cert : Type} {env : SecurityEnv Roots Cert} {m : GoMap String String}
  {r : FranzOptions Roots Cert} {key value : String}

/-- A key of the table is handed to the client as exactly what its value says, when the
product is exact. -/
theorem client_exact (h : Consumed env m r) (hget : m.get? key = some value)
    (hkey : IsMillisKey key) (htable : key ∈ Stage.table.keys) :
    ∃ ms, Text.atoi value = some ms ∧
      ((AppliedAs r key value (ms * 1000000) ∧ DocumentedRange key ms) ↔ ms ≤ maxMillis) := by
  have hnotPoll : key ∉ pollErrorKeys :=
    disjoint_stages .table .pollError (by decide) key htable
  have hpair : (key, value) ∈ tablePairs m.sorted :=
    List.mem_filter.mpr ⟨GoMap.mem_sorted.mpr hget, Assoc.isSome_lookup_iff.mpr htable⟩
  obtain ⟨s, securityOpts, tableOpts, -, htranslates, hopts⟩ := h.opts
  obtain ⟨opt, hopt, hrow⟩ := (exists_of_forall₂ htranslates).1 _ hpair
  obtain ⟨ms, hvalue, hpos, o, rfl, hduration⟩ := duration_of_translates hkey hrow
  have hexact := milliseconds_eq_iff (Int.le_of_lt hpos)
  refine ⟨ms, hvalue, ?_, fun hle => ⟨?_, ?_⟩⟩
  · rintro ⟨happlied, -⟩
    cases happlied with
    | adapter o' hmem hkey' =>
        refine absurd ?_ hnotPoll
        rw [← hkey']
        cases o' <;> simp [AdapterOption.key, pollErrorKeys]
    | client opt' hmem hrow' hduration' =>
        obtain ⟨ms', hvalue', -, o', ho', hd⟩ := duration_of_translates hkey hrow'
        obtain rfl := Option.some_inj.mp (hvalue.symm.trans hvalue')
        obtain rfl := Option.some_inj.mp ho'
        exact hexact.mp (Option.some_inj.mp (hd.symm.trans hduration'))
  · refine .client o ?_ hrow ?_
    · rw [hopts]
      exact List.mem_append_left _ (List.mem_map_of_mem (List.reduceOption_mem_iff.mpr hopt))
    · rw [hduration, hexact.mpr hle]
  · rw [DocumentedRange, if_neg, if_neg]
    · exact hpos
    · rintro rfl
      exact hnotPoll (by decide)
    · rintro rfl
      exact hnotPoll (by decide)

/-- What a pop parsed has the key that was popped, and is what its value says. -/
theorem popped_exact {parse : String → Except OptionFault AdapterOption} {o : Option AdapterOption}
    (hparse : ∀ {value o}, parse value = .ok o → ExactOption key value o)
    (hpop : (m.get? key).map parse = o.map .ok) :
    (∀ o' ∈ o, o'.key = key) ∧
      ∀ value, m.get? key = some value → ∃ o' ∈ o, ExactOption key value o' := by
  cases hget : m.get? key with
  | none =>
      rw [hget] at hpop
      cases o with
      | none => exact ⟨by simp, by simp⟩
      | some o' => cases hpop
  | some value =>
      rw [hget] at hpop
      cases o with
      | none => cases hpop
      | some o' =>
          have hexact := hparse (Option.some_inj.mp hpop)
          refine ⟨fun o'' ho'' => ?_, fun value' hvalue' => ?_⟩
          · obtain rfl := Option.some_inj.mp ho''
            exact hexact.1
          · obtain rfl := Option.some_inj.mp hvalue'
            exact ⟨o', rfl, hexact⟩

theorem keys_toList {o : Option AdapterOption} (h : ∀ o' ∈ o, o'.key = key) :
    (o.toList.map AdapterOption.key).Sublist [key] := by
  cases o with
  | none => exact List.nil_sublist [key]
  | some o' =>
      rw [Option.toList_some, List.map_singleton, h o' rfl]

/-- What a pop parsed is the only option of its key. -/
theorem exists_exactOption (h : Consumed env m r) (hget : m.get? key = some value)
    (hpoll : key ∈ pollErrorKeys) :
    ∃ o, ExactOption key value o ∧ ∀ o', (o' ∈ r.pollErrorOpts ∧ o'.key = key) ↔ o' = o := by
  obtain ⟨bail, interval, backoff, hbail, hinterval, hbackoff, hopts⟩ := h.pollErrors
  obtain ⟨hbailKey, hbailExact⟩ := popped_exact pollErrorBailAfter_exact hbail
  obtain ⟨hintervalKey, hintervalExact⟩ := popped_exact pollErrorLogInterval_exact hinterval
  obtain ⟨hbackoffKey, hbackoffExact⟩ := popped_exact pollErrorBackoff_exact hbackoff
  have hmem : ∀ o', o' ∈ r.pollErrorOpts ↔ o' ∈ bail ∨ o' ∈ interval ∨ o' ∈ backoff := by
    intro o'
    rw [hopts, List.mem_append, List.mem_append, Option.mem_toList, Option.mem_toList,
      Option.mem_toList, or_assoc]
    rfl
  -- one option for each key
  have hkeys : (r.pollErrorOpts.map AdapterOption.key).Sublist pollErrorKeys := by
    rw [hopts, List.map_append, List.map_append]
    exact ((keys_toList hbailKey).append (keys_toList hintervalKey)).append
      (keys_toList hbackoffKey)
  have hunique : (r.pollErrorOpts.map AdapterOption.key).Nodup := hkeys.nodup (by decide)
  have hfound : ∃ o ∈ r.pollErrorOpts, ExactOption key value o := by
    simp only [pollErrorKeys, List.mem_cons, List.not_mem_nil, or_false] at hpoll
    rcases hpoll with rfl | rfl | rfl
    · obtain ⟨o, ho, hexact⟩ := hbailExact value hget
      exact ⟨o, (hmem o).mpr (.inl ho), hexact⟩
    · obtain ⟨o, ho, hexact⟩ := hintervalExact value hget
      exact ⟨o, (hmem o).mpr (.inr (.inl ho)), hexact⟩
    · obtain ⟨o, ho, hexact⟩ := hbackoffExact value hget
      exact ⟨o, (hmem o).mpr (.inr (.inr ho)), hexact⟩
  obtain ⟨o, ho, hexact⟩ := hfound
  refine ⟨o, hexact, fun o' => ⟨fun h => ?_, fun h => ?_⟩⟩
  · exact List.inj_on_of_nodup_map hunique h.1 ho (h.2.trans hexact.1.symm)
  · rw [h]
    exact ⟨ho, hexact.1⟩

/-- A key of the adapter is handed to it as exactly what its value says, within its range,
when the product is exact. -/
theorem adapter_exact (h : Consumed env m r) (hget : m.get? key = some value)
    (hpoll : key ∈ pollErrorKeys) :
    ∃ ms, Text.atoi value = some ms ∧
      ((AppliedAs r key value (ms * 1000000) ∧ DocumentedRange key ms) ↔ ms ≤ maxMillis) := by
  obtain ⟨o, ⟨-, ms, hvalue, hexact⟩, honly⟩ := exists_exactOption h hget hpoll
  refine ⟨ms, hvalue, ?_, fun hle => ?_⟩
  · rintro ⟨happlied, hrange⟩
    cases happlied with
    | adapter o' hmem hkey hduration =>
        obtain rfl := (honly o').mp ⟨hmem, hkey⟩
        exact hexact.mp ⟨hduration, hrange⟩
    | client opt hmem hrow hduration =>
        -- no row of the table has a key of the adapter
        obtain ⟨translate, hlookup, -⟩ := hrow
        have htable : key ∈ Stage.table.keys :=
          List.mem_map_of_mem (f := Prod.fst) (mem_of_translator hlookup)
        exact absurd htable (disjoint_stages .pollError .table (by decide) key hpoll)
  · obtain ⟨hduration, hrange⟩ := hexact.mpr hle
    obtain ⟨hmem, hkey⟩ := (honly o).mpr rfl
    exact ⟨.adapter o hmem hkey hduration, hrange⟩

/-- Of an accepted map, every key in milliseconds is handed on as exactly what its value says
when the product is exact. -/
theorem applied_exact (h : Consumed env m r) (hget : m.get? key = some value)
    (hkey : IsMillisKey key) :
    ∃ ms, Text.atoi value = some ms ∧
      ((AppliedAs r key value (ms * 1000000) ∧ DocumentedRange key ms) ↔ ms ≤ maxMillis) := by
  have hsome : (m.get? key).isSome := by rw [hget]; rfl
  obtain ⟨stage, hstage, -⟩ := h.stage key hsome
  cases stage with
  | pollError => exact adapter_exact h hget hstage
  | table => exact client_exact h hget hkey hstage
  | logLevel =>
      obtain rfl := List.mem_singleton.mp hstage
      exact absurd hkey (by decide)
  | security =>
      have hnone : ∀ key ∈ Stage.security.keys, ¬ IsMillisKey key := by decide
      exact absurd hkey (hnone key hstage)

end

/-- The durations of the millisecond parsers, and of every key in milliseconds of every
accepted map, are exactly what the text says when its product fits in 64 bits, and are not
otherwise. -/
theorem millis_exact_iff (key value : String) :
    (∀ d, millisOption key value = .ok d → ∃ ms, Text.atoi value = some ms ∧
      ((d = ms * 1000000 ∧ 0 < d) ↔ ms ≤ maxMillis)) ∧
    (∀ d, nonNegativeMillisOption key value = .ok d → ∃ ms, Text.atoi value = some ms ∧
      ((d = ms * 1000000 ∧ 0 ≤ d ∧ (d = 0 ↔ ms = 0)) ↔ ms ≤ maxMillis)) ∧
    ∀ {Roots Cert : Type} (env : SecurityEnv Roots Cert) (m : GoMap String String)
      (r : FranzOptions Roots Cert), franzOptions env m = .ok r → m.get? key = some value →
      IsMillisKey key → ∃ ms, Text.atoi value = some ms ∧
        ((AppliedAs r key value (ms * 1000000) ∧ DocumentedRange key ms) ↔ ms ≤ maxMillis) :=
  ⟨fun _ => millisOption_exact, fun _ => nonNegativeMillisOption_exact,
    fun _ _ _ hok hget hkey => applied_exact (consumed_of_franzOptions hok) hget hkey⟩

/-- 2⁵⁸ milliseconds are a whole multiple of 2⁶⁴ nanoseconds, and the smallest number beyond
the bound is a negative duration. -/
def wrappedMap : GoMap String String where
  entries := [("llingr.poll.error.bail.after.ms", "288230376151711744"),
    ("llingr.poll.error.backoff.ms", "9223372036855"),
    ("llingr.poll.error.log.interval.ms", "18446744073710")]
  nodup := by decide

theorem millis_wrapped :
    (∃ r, franzOptions openEnv wrappedMap = .ok r ∧
      r.pollErrorOpts = [.pollErrorBailAfter 0, .pollErrorLogInterval 448384,
        .pollErrorBackoff (-9223372036854551616)]) ∧
    ¬ ∀ key value d, nonNegativeMillisOption key value = .ok d →
      ∃ ms, Text.atoi value = some ms ∧ d = ms * 1000000 := by
  constructor
  · have hresult : (franzOptions openEnv wrappedMap).toOption.map FranzOptions.pollErrorOpts =
        some [.pollErrorBailAfter 0, .pollErrorLogInterval 448384,
          .pollErrorBackoff (-9223372036854551616)] := by decide +kernel
    cases hok : franzOptions openEnv wrappedMap with
    | error e =>
        rw [hok] at hresult
        cases hresult
    | ok r =>
        rw [hok] at hresult
        exact ⟨r, rfl, Option.some_inj.mp hresult⟩
  · intro hclaim
    have hparse : Text.atoi "288230376151711744" = some 288230376151711744 := by decide +kernel
    have hzero : nonNegativeMillisOption "llingr.poll.error.bail.after.ms" "288230376151711744" =
        .ok 0 := by decide +kernel
    obtain ⟨ms, hvalue, hd⟩ := hclaim _ _ 0 hzero
    obtain rfl := Option.some_inj.mp (hparse.symm.trans hvalue)
    exact absurd hd (by decide)

end LlingrKafka.Options

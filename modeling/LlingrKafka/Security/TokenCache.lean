import LlingrKafka.Security.OidcToken

/-!
# The token cache

A token is granted for a time: its lifetime, counted from when it was stored (`Lease`).  What
was granted is read off the exchange with the endpoint (`Grants`), and the lease in force is
that of the last call whose request was granted one (`LatestLease`).

The cache keeps no lease but a token and an expiry, and the expiry comes from a multiplication
that wraps.  It wraps only downwards, so the cached expiry never exceeds that of the lease
(`Caches`), and whatever is returned without a request is returned well within its lease
(`tokenCache_safe`).
-/

namespace LlingrKafka.Security

open FixedWidth Metrics

/-- The lifetime in seconds that a literal stands for: what is absent, unreadable or not
positive counts as nothing. -/
inductive LifetimeOf (literal : String) : ℤ → Prop
  | given {n : ℤ} (hread : Text.parseInt 64 literal = some n) (hpos : 0 < n) :
      LifetimeOf literal n
  | absent (hempty : literal = "") : LifetimeOf literal 0
  | unreadable (hread : Text.parseInt 64 literal = none) : LifetimeOf literal 0
  | notPositive {n : ℤ} (hread : Text.parseInt 64 literal = some n) (hneg : n ≤ 0) :
      LifetimeOf literal 0

/-- The endpoint answers with a token and its lifetime. -/
inductive Grants (env : TokenEnv) : Exchange → String → ℤ → Prop
  | answered {status : String} {stream : Utf8.Bytes} {r : TokenResponse} {lifetime : ℤ}
      (hread : env.unmarshal (stream.take maxTokenResponse) = .ok r) (hne : r.accessToken ≠ "")
      (hlifetime : LifetimeOf r.expiresIn lifetime) :
      Grants env (.answered 200 status stream) r.accessToken lifetime

/-- A token as it was granted, and when it was stored. -/
structure Lease where
  token : String
  stored : GoTime
  lifetime : ℤ

/-- The end of a lease, in exact nanoseconds. -/
def Lease.expiry (lease : Lease) : ℤ := lease.stored.nanos + lease.lifetime * 1000000000

/-- A call takes out a lease: its one request is granted the token. -/
structure TakesOut (env : TokenEnv) (p : TokenCall × Outcome) (lease : Lease) : Prop where
  granted : ∃ request, p.2.requests = [request] ∧
    Grants env (p.1.endpoint request) lease.token lease.lifetime
  stored : lease.stored = p.1.stored

/-- The lease of the most recently fetched token. -/
def LatestLease (env : TokenEnv) (past : List (TokenCall × Outcome)) (lease : Lease) : Prop :=
  ∃ before p after, past = before ++ p :: after ∧ TakesOut env p lease ∧
    ∀ q ∈ after, ∀ lease', ¬ TakesOut env q lease'

/-- The clock never goes back, from one reading to the next. -/
def ClockOrdered (calls : List TokenCall) : Prop :=
  (calls.flatMap fun call => [call.now.nanos, call.stored.nanos]).Pairwise (· ≤ ·)

instance (calls : List TokenCall) : Decidable (ClockOrdered calls) :=
  inferInstanceAs (Decidable (List.Pairwise _ _))

/-- What the cache knows of the latest lease. -/
inductive Caches (env : TokenEnv) (past : List (TokenCall × Outcome)) (f : OidcTokenFetcher) : Prop
  | nothing (hempty : f.token = "")
  | lease {lease : Lease} (hlatest : LatestLease env past lease) (htoken : f.token = lease.token)
      (hexpiry : f.expiresAt.nanos ≤ lease.expiry)

/-! ## One call -/

/-- The product of a lifetime wraps downwards only. -/
theorem seconds_le {n : ℤ} (hn : 0 ≤ n) : seconds n ≤ n * 1000000000 := by
  obtain ⟨k, rfl⟩ := Int.eq_ofNat_of_zero_le hn
  have hle := wrap_natCast_le 64 (k * 1000000000)
  push_cast at hle
  exact hle

theorem LifetimeOf.nonneg {literal : String} {n : ℤ} (h : LifetimeOf literal n) : 0 ≤ n := by
  cases h with
  | given _ hpos => exact Int.le_of_lt hpos
  | absent | unreadable | notPositive => exact Int.le_refl 0

theorem lifetime_eq_iff {r : TokenResponse} {n : ℤ} :
    r.lifetime = n ↔ LifetimeOf r.expiresIn n := by
  have hblank : Text.parseInt 64 "" = none := by decide
  unfold TokenResponse.lifetime
  constructor
  · rintro rfl
    split_ifs with hempty
    · exact .absent hempty
    · cases hread : Text.parseInt 64 r.expiresIn with
      | none => exact .unreadable hread
      | some n =>
          simp only
          split_ifs with hpos
          · exact .given hread hpos
          · exact .notPositive hread (not_lt.mp hpos)
  · intro h
    cases h with
    | given hread hpos =>
        have hne : r.expiresIn ≠ "" := by
          intro hempty
          rw [hempty, hblank] at hread
          cases hread
        rw [if_neg hne, hread]
        exact if_pos hpos
    | absent hempty => rw [if_pos hempty]
    | unreadable hread =>
        rw [hread]
        exact ite_self 0
    | notPositive hread hneg =>
        rw [hread]
        show (if _ then _ else if _ then _ else _) = _
        rw [if_neg (not_lt.mpr hneg)]
        exact ite_self 0

theorem fresh_iff {f : OidcTokenFetcher} {now : GoTime} :
    f.fresh now = true ↔
      f.token ≠ "" ∧ now.nanos + oidcRefreshLeeway < f.expiresAt.nanos := by
  rw [OidcTokenFetcher.fresh, Bool.and_eq_true, decide_eq_true_iff, GoTime.before_iff,
    GoTime.nanos_add]
  constructor
  · rintro ⟨hne, hlt⟩
    exact ⟨hne, by omega⟩
  · rintro ⟨hne, hlt⟩
    exact ⟨hne, by omega⟩

section

variable {env : TokenEnv} {source : TokenSource} {f : OidcTokenFetcher} {call : TokenCall}

theorem Grants.ne_empty {x : Exchange} {token : String} {lifetime : ℤ}
    (h : Grants env x token lifetime) : token ≠ "" := by
  cases h with
  | answered _ hne => exact hne

theorem Grants.nonneg {x : Exchange} {token : String} {lifetime : ℤ}
    (h : Grants env x token lifetime) : 0 ≤ lifetime := by
  cases h with
  | answered _ _ hlifetime => exact hlifetime.nonneg

/-- Reading the answer gives what it grants. -/
theorem readResponse_eq_ok_iff {x : Exchange} {token : String} {lifetime : ℤ} :
    readResponse env source x = .ok (token, lifetime) ↔ Grants env x token lifetime := by
  constructor
  · intro h
    cases x with
    | unreachable e => cases h
    | unreadable e => cases h
    | answered statusCode status stream =>
        simp only [readResponse] at h
        split_ifs at h with hstatus
        obtain rfl := not_not.mp hstatus
        split at h
        · cases h
        · rename_i r hread
          split_ifs at h with hempty
          obtain ⟨rfl, hlifetime⟩ := Prod.mk.inj (Except.ok.inj h)
          exact .answered hread hempty (lifetime_eq_iff.mp hlifetime)
  · intro h
    cases h with
    | answered hread hne hlifetime =>
        simp only [readResponse]
        rw [if_neg (not_not.mpr rfl), hread]
        simp only
        rw [if_neg hne, lifetime_eq_iff.mpr hlifetime]

variable (env) in
/-- What a call can do. -/
inductive Answers (f : OidcTokenFetcher) (call : TokenCall) :
    OidcTokenFetcher × Outcome → Prop
  | cached (hfresh : f.fresh call.now = true) : Answers f call (f, ⟨[], .ok f.token⟩)
  | unsent {fault : FetchFault} : Answers f call (f, ⟨[], .error fault⟩)
  | refused {request : TokenRequest} {fault : FetchFault}
      (hrefused : ∀ token lifetime, ¬ Grants env (call.endpoint request) token lifetime) :
      Answers f call (f, ⟨[request], .error fault⟩)
  | granted {request : TokenRequest} {token : String} {lifetime : ℤ}
      (hgrants : Grants env (call.endpoint request) token lifetime) :
      Answers f call (⟨token, call.stored.add (seconds lifetime)⟩, ⟨[request], .ok token⟩)

variable (env source f call) in
theorem accessToken_answers : Answers env f call (accessToken env source f call) := by
  unfold accessToken
  by_cases hfresh : f.fresh call.now = true
  · rw [if_pos hfresh]
    exact .cached hfresh
  · rw [if_neg hfresh, fetch]
    cases env.requestError source.endpoint with
    | some e => exact .unsent
    | none =>
        simp only
        cases hread : readResponse env source (call.endpoint (tokenRequest env source)) with
        | ok granted => exact .granted (readResponse_eq_ok_iff.mp hread)
        | error fault =>
            refine .refused fun token lifetime hgrants => ?_
            rw [readResponse_eq_ok_iff.mpr hgrants] at hread
            cases hread

section

variable {answer : OidcTokenFetcher × Outcome} (h : Answers env f call answer)

include h

theorem Answers.requests_le_one : answer.2.requests.length ≤ 1 := by
  cases h with
  | cached | unsent => exact Nat.zero_le 1
  | refused | granted => exact Nat.le_refl 1

/-- A token that took no request is the cached one. -/
theorem Answers.fresh_of_unrequested {token : String} (hnone : answer.2.requests = [])
    (htoken : answer.2.result = .ok token) : f.fresh call.now = true ∧ f.token = token := by
  cases h with
  | cached hfresh => exact ⟨hfresh, Except.ok.inj htoken⟩
  | unsent => cases htoken
  | refused => cases hnone
  | granted => cases hnone

/-- A request that was sent decides the answer. -/
theorem Answers.ok_iff_grants {request : TokenRequest} {token : String}
    (hrequest : answer.2.requests = [request]) :
    answer.2.result = .ok token ↔
      ∃ lifetime, Grants env (call.endpoint request) token lifetime := by
  cases h with
  | cached => cases hrequest
  | unsent => cases hrequest
  | refused hrefused =>
      obtain rfl := (List.cons.inj hrequest).1
      constructor
      · intro htoken
        cases htoken
      · rintro ⟨lifetime, hgrants⟩
        exact absurd hgrants (hrefused token lifetime)
  | @granted _ token' lifetime hgrants =>
      obtain rfl := (List.cons.inj hrequest).1
      constructor
      · intro htoken
        obtain rfl := Except.ok.inj htoken
        exact ⟨lifetime, hgrants⟩
      · rintro ⟨lifetime', hgrants'⟩
        -- an exchange grants one token
        have hread := (@readResponse_eq_ok_iff env ⟨"", "", "", ""⟩ _ _ _).mpr hgrants
        rw [readResponse_eq_ok_iff.mpr hgrants'] at hread
        exact congrArg Except.ok (Prod.mk.inj (Except.ok.inj hread)).1.symm

theorem Answers.ne_empty {token : String} (htoken : answer.2.result = .ok token) :
    token ≠ "" := by
  cases h with
  | cached hfresh =>
      obtain rfl := Except.ok.inj htoken
      exact (fresh_iff.mp hfresh).1
  | unsent => cases htoken
  | refused => cases htoken
  | granted hgrants =>
      obtain rfl := Except.ok.inj htoken
      exact hgrants.ne_empty

/-- A call that fails changes nothing. -/
theorem Answers.idle_of_error {fault : FetchFault} (hfault : answer.2.result = .error fault) :
    answer.1 = f := by
  cases h with
  | cached => rfl
  | unsent => rfl
  | refused => rfl
  | granted => cases hfault

end

/-! ## Runs -/

/-- A call that takes out no lease leaves the latest one in force. -/
theorem LatestLease.snoc {past : List (TokenCall × Outcome)} {p : TokenCall × Outcome}
    {lease : Lease} (h : LatestLease env past lease) (hnone : ∀ lease', ¬ TakesOut env p lease') :
    LatestLease env (past ++ [p]) lease := by
  obtain ⟨before, q, after, rfl, htakes, hafter⟩ := h
  refine ⟨before, q, after ++ [p], by simp, htakes, fun q' hq' => ?_⟩
  rcases List.mem_append.mp hq' with hq' | hq'
  · exact hafter q' hq'
  · obtain rfl := List.mem_singleton.mp hq'
    exact hnone

/-- Without a request, or with one that is refused, no lease is taken out. -/
theorem Caches.snoc {past : List (TokenCall × Outcome)} {p : TokenCall × Outcome}
    (h : Caches env past f) (hnone : ∀ lease, ¬ TakesOut env p lease) :
    Caches env (past ++ [p]) f := by
  cases h with
  | nothing hempty => exact .nothing hempty
  | lease hlatest htoken hexpiry => exact .lease (hlatest.snoc hnone) htoken hexpiry

/-- A call keeps the cache behind its lease. -/
theorem caches_step {past : List (TokenCall × Outcome)} (h : Caches env past f) :
    Caches env (past ++ [(call, (accessToken env source f call).2)])
      (accessToken env source f call).1 := by
  have hanswers := accessToken_answers env source f call
  generalize accessToken env source f call = answer at hanswers
  cases hanswers with
  | cached =>
      refine h.snoc fun lease htakes => ?_
      obtain ⟨request, hrequest, -⟩ := htakes.granted
      cases hrequest
  | unsent =>
      refine h.snoc fun lease htakes => ?_
      obtain ⟨request, hrequest, -⟩ := htakes.granted
      cases hrequest
  | refused hrefused =>
      refine h.snoc fun lease htakes => ?_
      obtain ⟨request, hrequest, hgrants⟩ := htakes.granted
      obtain rfl := (List.cons.inj hrequest).1
      exact hrefused _ _ hgrants
  | @granted request token lifetime hgrants =>
      refine @Caches.lease _ _ _ ⟨token, call.stored, lifetime⟩
        ⟨past, _, [], rfl, ⟨⟨request, rfl, hgrants⟩, rfl⟩, fun q hq => by cases hq⟩ rfl ?_
      rw [GoTime.nanos_add]
      exact Int.add_le_add_left (seconds_le hgrants.nonneg) call.stored.nanos

theorem caches_after (calls : List TokenCall) :
    Caches env ((tokenCache env source).trace .new calls)
      ((tokenCache env source).after .new calls) :=
  Transducer.inv_after (I := Caches env) (.nothing rfl) (fun _ _ _ h => caches_step h) calls

theorem stored_le_now {before later : List TokenCall} {call call' : TokenCall}
    (hclock : ClockOrdered (before ++ call :: later)) (hmem : call' ∈ before) :
    call'.stored.nanos ≤ call.now.nanos := by
  rw [ClockOrdered, List.flatMap_append, List.pairwise_append] at hclock
  refine hclock.2.2 _ (List.mem_flatMap.mpr ⟨call', hmem, ?_⟩) _
    (List.mem_flatMap.mpr ⟨call, List.mem_cons_self, List.mem_cons_self⟩)
  exact List.mem_cons_of_mem _ List.mem_cons_self

/-- A lease was taken out by one of the calls before. -/
theorem LatestLease.stored_le {before later : List TokenCall} {lease : Lease}
    (h : LatestLease env ((tokenCache env source).trace .new before) lease)
    (hclock : ClockOrdered (before ++ call :: later)) : lease.stored.nanos ≤ call.now.nanos := by
  obtain ⟨past, p, rest, htrace, htakes, -⟩ := h
  have hcalls := congrArg (List.map Prod.fst) htrace
  rw [Transducer.map_fst_trace, List.map_append, List.map_cons] at hcalls
  rw [htakes.stored]
  refine stored_le_now hclock ?_
  rw [hcalls]
  exact List.mem_append_right _ List.mem_cons_self

/-- A token that took no request is the latest one, well within its lease. -/
theorem latestLease_of_unrequested {before later : List TokenCall} {token : String}
    (hclock : ClockOrdered (before ++ call :: later))
    (hnone : (accessToken env source ((tokenCache env source).after .new before) call).2.requests =
      [])
    (htoken : (accessToken env source ((tokenCache env source).after .new before) call).2.result =
      .ok token) :
    ∃ lease, LatestLease env ((tokenCache env source).trace .new before) lease ∧
      token = lease.token ∧ call.now.nanos + oidcRefreshLeeway < lease.expiry ∧
      30 < lease.lifetime := by
  have hcaches := @caches_after env source before
  generalize (tokenCache env source).after .new before = f at hnone htoken hcaches
  obtain ⟨hfresh, rfl⟩ :=
    (accessToken_answers env source f call).fresh_of_unrequested hnone htoken
  obtain ⟨hne, hlt⟩ := fresh_iff.mp hfresh
  cases hcaches with
  | nothing hempty => exact absurd hempty hne
  | @lease lease hlatest htoken hexpiry =>
      have hbegan := hlatest.stored_le hclock
      refine ⟨lease, hlatest, htoken, by omega, ?_⟩
      -- the lease began no later than now, and ends more than the leeway after it
      rw [Lease.expiry] at hexpiry
      rw [oidcRefreshLeeway] at hlt
      omega

end

/-- In every run of calls under a clock that does not go back: a token that is returned without
a request is the one the latest granted request brought, more than the leeway before its
lifetime ends; no call sends more than one request, and one that is sent decides the answer; and
a call that fails changes nothing, and leaves every other answer as it would have been without
it. -/
theorem tokenCache_safe (env : TokenEnv) (source : TokenSource) (before : List TokenCall)
    (call : TokenCall) (later : List TokenCall)
    (hclock : ClockOrdered (before ++ call :: later)) :
    let cache := tokenCache env source
    let f := cache.after .new before
    let answer := accessToken env source f call
    (∀ token, answer.2.requests = [] → answer.2.result = .ok token →
      ∃ lease, LatestLease env (cache.trace .new before) lease ∧ token = lease.token ∧
        call.now.nanos + oidcRefreshLeeway < lease.expiry ∧ 30 < lease.lifetime) ∧
    answer.2.requests.length ≤ 1 ∧
    (∀ request, answer.2.requests = [request] → ∀ token, answer.2.result = .ok token ↔
      ∃ lifetime, Grants env (call.endpoint request) token lifetime) ∧
    (∀ token, answer.2.result = .ok token → token ≠ "") ∧
    ∀ fault, answer.2.result = .error fault → answer.1 = f ∧
      ∃ rest, cache.trace .new (before ++ later) = cache.trace .new before ++ rest ∧
        cache.trace .new (before ++ call :: later) =
          cache.trace .new before ++ (call, answer.2) :: rest := by
  intro cache f answer
  have hanswers : Answers env f call answer := accessToken_answers env source f call
  refine ⟨fun token hnone htoken => latestLease_of_unrequested hclock hnone htoken,
    hanswers.requests_le_one, fun request hrequest token => hanswers.ok_iff_grants hrequest,
    fun token => hanswers.ne_empty, fun fault hfault => ?_⟩
  have hidle : answer.1 = f := hanswers.idle_of_error hfault
  exact ⟨hidle, Transducer.trace_of_idle hidle later⟩

/-- A source and an endpoint that grants a token for an hour. -/
def hourlySource : TokenSource := ⟨"https://idp/token", "id", "secret", ""⟩

def plainTokenEnv : TokenEnv where
  queryEscape := id
  requestError := fun _ => none
  syntaxError := fun _ => "unexpected end of JSON input"
  typeError := fun _ _ => "json: cannot unmarshal"
  invalidNumber := fun _ => "json: invalid number literal"

/-- A call some seconds after the epoch. -/
def hourlyCall (now : ℤ) : TokenCall where
  now := ⟨now, 0, Nat.zero_lt_succ _⟩
  stored := ⟨now, 0, Nat.zero_lt_succ _⟩
  endpoint := fun _ => .answered 200 "200 OK"
    (Utf8.encode "\x7b\"access_token\":\"t\",\"expires_in\":3600\x7d")

theorem tokenCache_safe_hourly :
    (accessToken plainTokenEnv hourlySource
      ((tokenCache plainTokenEnv hourlySource).after .new [hourlyCall 0]) (hourlyCall 60)).2 =
        ⟨[], .ok "t"⟩ ∧
      ∃ lease, LatestLease plainTokenEnv
          ((tokenCache plainTokenEnv hourlySource).trace .new [hourlyCall 0]) lease ∧
        "t" = lease.token ∧ (hourlyCall 60).now.nanos + oidcRefreshLeeway < lease.expiry ∧
        30 < lease.lifetime := by
  have hcached : (accessToken plainTokenEnv hourlySource
      ((tokenCache plainTokenEnv hourlySource).after .new [hourlyCall 0]) (hourlyCall 60)).2 =
        ⟨[], .ok "t"⟩ := by rfl
  refine ⟨hcached, (tokenCache_safe plainTokenEnv hourlySource [hourlyCall 0] (hourlyCall 60) []
    (by decide)).1 "t" ?_ ?_⟩
  · exact congrArg Outcome.requests hcached
  · exact congrArg Outcome.result hcached

end LlingrKafka.Security

import LlingrKafka.Builder.Conflicts

/-!
# The pairs of a sequence of calls

`allEntries_build` says what any sequence of calls adds up to without running it: the pairs
of the calls in order, the protocol, the TLS pairs in order, and the pairs of the last
mechanism setter.  Of the calls before that setter nothing is left in its pairs, and of those
after it the last value of each of its own refinements (`Call.mechanismPairs`).

The mechanism is followed through the calls behind its setter by `Sasl.refine`, one call, and
`Sasl.refined`, all of them.
-/

namespace LlingrKafka.Builder

variable {durationMsCeil : ℕ → ℕ}

/-! ## What a call is -/

/-- A call that asks for TLS. -/
def Call.RequestsTls : Call → Bool
  | .tls | .tlsCaLocation _ | .tlsCaPem _ | .tlsClientCertificate .. | .tlsClientCertificatePem ..
  | .disableCertificateVerification | .disableHostnameVerification | .saslAwsMskIam
  | .saslGcpIam => true
  | _ => false

/-- A call that chooses a mechanism. -/
def Call.SetsMechanism : Call → Bool
  | .saslPlain .. | .saslScramSha256 .. | .saslScramSha512 .. | .saslAwsMskIam
  | .saslOauthbearerOidc .. | .saslGcpIam => true
  | _ => false

namespace Call

def region? : Call → Option String
  | .awsRegion region => some region
  | _ => none

def profile? : Call → Option String
  | .awsProfile profile => some profile
  | _ => none

def role? : Call → Option (String × Option String)
  | .awsAssumeRole roleArn sessionName => some (roleArn, sessionName)
  | _ => none

def scope? : Call → Option String
  | .oauthbearerScope scope => some scope
  | _ => none

def extensions? : Call → Option (List (String × String))
  | .oauthbearerExtensions pairs => some pairs
  | _ => none

def principal? : Call → Option String
  | .gcpPrincipal principal => some principal
  | _ => none

def credentialsFile? : Call → Option String
  | .gcpCredentialsFile path => some path
  | _ => none

end Call

/-- The value a refinement has last among some calls. -/
def lastValue {α : Type} (read : Call → Option α) (calls : List Call) : Option α :=
  (calls.filterMap read).getLast?

theorem lastValue_cons {α : Type} (read : Call → Option α) (call : Call) (calls : List Call) :
    lastValue read (call :: calls) = (lastValue read calls).or (read call) :=
  Assoc.getLast?_filterMap_cons call calls

/-- The pairs of a mechanism setter and the calls after it. -/
def Call.mechanismPairs (after : List Call) : Call → List (String × String)
  | .saslPlain username password =>
      [("sasl.mechanism", "PLAIN"), ("sasl.username", username), ("sasl.password", password)]
  | .saslScramSha256 username password =>
      [("sasl.mechanism", "SCRAM-SHA-256"), ("sasl.username", username),
        ("sasl.password", password)]
  | .saslScramSha512 username password =>
      [("sasl.mechanism", "SCRAM-SHA-512"), ("sasl.username", username),
        ("sasl.password", password)]
  | .saslAwsMskIam =>
      [("sasl.mechanism", "AWS_MSK_IAM")] ++ optPair "aws.region" (lastValue region? after) ++
        optPair "aws.profile" (lastValue profile? after) ++
        optPair "aws.role.arn" ((lastValue role? after).map Prod.fst) ++
        optPair "aws.role.session.name" ((lastValue role? after).bind Prod.snd)
  | .saslOauthbearerOidc tokenEndpointUrl clientId clientSecret =>
      [("sasl.mechanism", "OAUTHBEARER"),
        ("sasl.oauthbearer.token.endpoint.url", tokenEndpointUrl),
        ("sasl.oauthbearer.client.id", clientId),
        ("sasl.oauthbearer.client.secret", clientSecret)] ++
        optPair "sasl.oauthbearer.scope" (lastValue scope? after) ++
        optPair "sasl.oauthbearer.extensions"
          (((lastValue extensions? after).filter (· ≠ [])).map fun pairs =>
            ",".intercalate (pairs.map fun p => p.1 ++ "=" ++ p.2))
  | .saslGcpIam =>
      [("sasl.mechanism", "OAUTHBEARER"), ("sasl.oauthbearer.method", "gcp")] ++
        optPair "gcp.principal" (lastValue principal? after) ++
        optPair "gcp.credentials.file" (lastValue credentialsFile? after)
  | _ => []

/-! ## The mechanism behind its setter -/

/-- What one call makes of the mechanism in force. -/
def Sasl.refine (call : Call) : Sasl → Sasl
  | .userPass mechanism username password => .userPass mechanism username password
  | .awsMskIam region profile roleArn roleSessionName =>
      .awsMskIam (call.region?.or region) (call.profile?.or profile)
        (call.role?.elim roleArn fun role => some role.1)
        (call.role?.elim roleSessionName Prod.snd)
  | .oauthbearerOidc tokenEndpoint clientId clientSecret scope extensions =>
      .oauthbearerOidc tokenEndpoint clientId clientSecret (call.scope?.or scope)
        (call.extensions?.getD extensions)
  | .gcpIam principal credentialsFile =>
      .gcpIam (call.principal?.or principal) (call.credentialsFile?.or credentialsFile)

/-- What the calls behind it make of a mechanism. -/
def Sasl.refined (after : List Call) : Sasl → Sasl
  | .userPass mechanism username password => .userPass mechanism username password
  | .awsMskIam region profile roleArn roleSessionName =>
      .awsMskIam ((lastValue Call.region? after).or region)
        ((lastValue Call.profile? after).or profile)
        ((lastValue Call.role? after).elim roleArn fun role => some role.1)
        ((lastValue Call.role? after).elim roleSessionName Prod.snd)
  | .oauthbearerOidc tokenEndpoint clientId clientSecret scope extensions =>
      .oauthbearerOidc tokenEndpoint clientId clientSecret
        ((lastValue Call.scope? after).or scope)
        ((lastValue Call.extensions? after).getD extensions)
  | .gcpIam principal credentialsFile =>
      .gcpIam ((lastValue Call.principal? after).or principal)
        ((lastValue Call.credentialsFile? after).or credentialsFile)

theorem refined_nil (sasl : Sasl) : sasl.refined [] = sasl := by
  cases sasl <;> rfl

/-- The calls behind a mechanism refine it one after the other. -/
theorem refined_cons (call : Call) (after : List Call) (sasl : Sasl) :
    sasl.refined (call :: after) = (sasl.refine call).refined after := by
  have hrole : ∀ {α : Type} (last first : Option (String × Option String)) (none' : α)
      (read : String × Option String → α),
      (last.or first).elim none' read = last.elim (first.elim none' read) read := by
    intro α last first none' read
    cases last <;> rfl
  cases sasl with
  | userPass mechanism username password => rfl
  | awsMskIam region profile roleArn roleSessionName =>
      simp only [Sasl.refined, Sasl.refine, lastValue_cons, Option.or_assoc, hrole]
  | oauthbearerOidc tokenEndpoint clientId clientSecret scope extensions =>
      simp only [Sasl.refined, Sasl.refine, lastValue_cons, Option.or_assoc, Option.getD_or]
  | gcpIam principal credentialsFile =>
      simp only [Sasl.refined, Sasl.refine, lastValue_cons, Option.or_assoc]

namespace Options

variable {o : Options}

/-- A call that chooses no mechanism refines the one in force. -/
theorem sasl_apply {call : Call} (h : call.SetsMechanism = false) :
    (o.apply durationMsCeil call).sasl = o.sasl.map (Sasl.refine call) := by
  have hkeep : ∀ call : Call, (∀ sasl : Sasl, sasl.refine call = sasl) →
      o.sasl = o.sasl.map (Sasl.refine call) := by
    intro call hcall
    cases o.sasl with
    | none => rfl
    | some sasl => exact congrArg some (hcall sasl).symm
  cases call
  case saslPlain | saslScramSha256 | saslScramSha512 | saslAwsMskIam | saslOauthbearerOidc |
      saslGcpIam => cases h
  case kafkaOptions pairs =>
    rw [apply, entries_foldl_push]
    exact hkeep _ fun sasl => by cases sasl <;> rfl
  case awsRegion | awsProfile | awsAssumeRole | oauthbearerScope | oauthbearerExtensions |
      gcpPrincipal | gcpCredentialsFile =>
    cases hs : o.sasl with
    | none => simp only [apply, hs, Option.map_none]
    | some sasl => cases sasl <;> simp only [apply, hs] <;> rfl
  all_goals exact hkeep _ fun sasl => by cases sasl <;> rfl

theorem sasl_foldl_apply {after : List Call} (h : ∀ call ∈ after, call.SetsMechanism = false)
    (o : Options) :
    (after.foldl (apply durationMsCeil) o).sasl = o.sasl.map (Sasl.refined after) := by
  induction after generalizing o with
  | nil =>
      have hid : Sasl.refined [] = id := funext refined_nil
      rw [List.foldl_nil, hid, Option.map_id]
      rfl
  | cons call after ih =>
      have hcomp : Sasl.refined (call :: after) = Sasl.refined after ∘ Sasl.refine call :=
        funext (refined_cons call after)
      rw [List.foldl_cons, ih (fun c hc => h c (List.mem_cons_of_mem _ hc)),
        sasl_apply (h call List.mem_cons_self), Option.map_map, hcomp]

/-- A mechanism setter replaces what was there: its pairs are its own, as refined behind it. -/
theorem saslEntries_of_setsMechanism {call : Call} (h : call.SetsMechanism = true)
    (after : List Call) (o : Options) :
    ((o.apply durationMsCeil call).sasl.map (Sasl.refined after)).elim [] Sasl.entries =
      call.mechanismPairs after := by
  cases call
  case saslAwsMskIam =>
    have hrole : ∀ role : Option (String × Option String),
        (role.elim none fun role => some role.1) = role.map Prod.fst ∧
          role.elim none Prod.snd = role.bind Prod.snd := by
      intro role
      cases role <;> exact ⟨rfl, rfl⟩
    simp only [apply, Option.map_some, Option.elim_some, Sasl.refined, Sasl.entries, Option.or_none,
      hrole, Call.mechanismPairs]
  case saslOauthbearerOidc =>
    have hextensions : ∀ pairs : Option (List (String × String)),
        (if (pairs.getD []).isEmpty then []
          else [("sasl.oauthbearer.extensions", joinExtensions (pairs.getD []))]) =
          optPair "sasl.oauthbearer.extensions" ((pairs.filter (· ≠ [])).map joinExtensions) := by
      intro pairs
      cases pairs with
      | none => rfl
      | some pairs => cases pairs <;> rfl
    simp only [apply, Option.map_some, Option.elim_some, Sasl.refined, Sasl.entries, Option.or_none,
      hextensions, Call.mechanismPairs]
    rfl
  case saslGcpIam =>
    simp only [apply, Option.map_some, Option.elim_some, Sasl.refined, Sasl.entries, Option.or_none,
      Call.mechanismPairs]
  case saslPlain | saslScramSha256 | saslScramSha512 => rfl
  all_goals cases h

/-! ## The flags -/

theorem tls_apply (o : Options) (call : Call) :
    (o.apply durationMsCeil call).tls = (o.tls || call.RequestsTls) := by
  cases call
  case kafkaOptions pairs => simp [apply, entries_foldl_push, Call.RequestsTls]
  case awsRegion | awsProfile | awsAssumeRole | oauthbearerScope | oauthbearerExtensions |
      gcpPrincipal | gcpCredentialsFile =>
    simp only [apply, Call.RequestsTls, Bool.or_false]
    split <;> rfl
  all_goals simp [apply, push, pushSsl, Call.RequestsTls]

theorem tls_build (calls : List Call) :
    (build durationMsCeil calls).tls = calls.any Call.RequestsTls := by
  have hrun : ∀ (calls : List Call) (o : Options),
      (calls.foldl (apply durationMsCeil) o).tls = (o.tls || calls.any Call.RequestsTls) := by
    intro calls
    induction calls with
    | nil => exact fun o => (Bool.or_false _).symm
    | cons call calls ih =>
        intro o
        rw [List.foldl_cons, ih, tls_apply, List.any_cons, Bool.or_assoc]
  exact hrun calls .new

theorem isSome_sasl_apply (o : Options) (call : Call) :
    (o.apply durationMsCeil call).sasl.isSome = (o.sasl.isSome || call.SetsMechanism) := by
  cases hset : call.SetsMechanism with
  | false => rw [sasl_apply hset, Option.isSome_map, Bool.or_false]
  | true =>
      rw [Bool.or_true]
      cases call
      case saslPlain | saslScramSha256 | saslScramSha512 | saslAwsMskIam | saslOauthbearerOidc |
          saslGcpIam => rfl
      all_goals cases hset

theorem isSome_sasl_build (calls : List Call) :
    (build durationMsCeil calls).sasl.isSome = calls.any Call.SetsMechanism := by
  have hrun : ∀ (calls : List Call) (o : Options),
      (calls.foldl (apply durationMsCeil) o).sasl.isSome =
        (o.sasl.isSome || calls.any Call.SetsMechanism) := by
    intro calls
    induction calls with
    | nil => exact fun o => (Bool.or_false _).symm
    | cons call calls ih =>
        intro o
        rw [List.foldl_cons, ih, isSome_sasl_apply, List.any_cons, Bool.or_assoc]
  exact hrun calls .new

end Options

/-! ## The sequence -/

/-- The protocol pair of a sequence of calls. -/
def protocolPairs (calls : List Call) : List (String × String) :=
  match calls.any Call.RequestsTls, calls.any Call.SetsMechanism with
  | true, true => [("security.protocol", "sasl_ssl")]
  | true, false => [("security.protocol", "ssl")]
  | false, true => [("security.protocol", "sasl_plaintext")]
  | false, false => []

theorem securityEntries_build (calls : List Call) :
    (Options.build durationMsCeil calls).securityEntries =
      protocolPairs calls ++ calls.flatMap Call.tlsPairs ++
        (Options.build durationMsCeil calls).sasl.elim [] Sasl.entries := by
  have htls := @Options.tls_build durationMsCeil calls
  have hsasl := @Options.isSome_sasl_build durationMsCeil calls
  have htyped := @typedSecurity_build durationMsCeil calls
  rw [← @sslEntries_build durationMsCeil, protocolPairs, ← htls, ← hsasl,
    Options.securityEntries, Options.securityActive, Options.protocol]
  generalize Options.build durationMsCeil calls = o at htyped
  cases hflag : o.tls with
  | true => cases o.sasl <;> simp
  | false =>
      have hssl : o.sslEntries = [] := by
        by_contra hne
        rw [htyped.tls_of_pairs hne] at hflag
        cases hflag
      rw [hssl]
      cases o.sasl <;> simp

/-- What any sequence of calls adds up to.  The pairs of the mechanism are those of its last
setter and the refinements behind it; with no such setter there are none. -/
theorem allEntries_build (durationMsCeil : ℕ → ℕ) (calls : List Call) :
    ∃ mechanism : List (String × String),
      (Options.build durationMsCeil calls).allEntries =
        calls.flatMap (Call.pairs durationMsCeil) ++ protocolPairs calls ++
          calls.flatMap Call.tlsPairs ++ mechanism ∧
      ((∀ call ∈ calls, call.SetsMechanism = false) → mechanism = []) ∧
      ∀ before call after, calls = before ++ call :: after → call.SetsMechanism = true →
        (∀ later ∈ after, later.SetsMechanism = false) →
          mechanism = call.mechanismPairs after := by
  refine ⟨(Options.build durationMsCeil calls).sasl.elim [] Sasl.entries, ?_, fun hnone => ?_, ?_⟩
  · rw [Options.allEntries, securityEntries_build, Options.entries_build, List.append_assoc,
      List.append_assoc, List.append_assoc]
  · have hsasl : (Options.build durationMsCeil calls).sasl = none := by
      rw [← Option.not_isSome_iff_eq_none, Options.isSome_sasl_build, List.any_eq_true]
      rintro ⟨call, hcall, hset⟩
      rw [hnone call hcall] at hset
      cases hset
    rw [hsasl]
    rfl
  · rintro before call after rfl hset hafter
    rw [Options.build, List.foldl_append, List.foldl_cons, Options.sasl_foldl_apply hafter]
    exact Options.saslEntries_of_setsMechanism hset after _

end LlingrKafka.Builder

import LlingrKafka.Builder.Options
import Mathlib.Data.List.Infix

/-!
# What the Debug text shows

The Debug text of a builder hides the values of the keys that name a secret.  Hiding the
secrets in the arguments of the calls instead gives the same text and the same verdict of
`validate` (`debug_hide`, `validate_hide`): hiding commutes with every setter
(`hide_apply`), and every pair that carries a secret argument has a key that is hidden.  So
two builders whose calls differ in secrets only cannot be told apart by either
(`debug_independent`).
-/

namespace LlingrKafka.Builder

variable {durationMsCeil : ℕ → ℕ}

/-- `str::contains`. -/
def containsText (s pattern : String) : Bool := decide (pattern.toList <:+: s.toList)

/-- The keys whose values the Debug text hides. -/
def hidesKey (key : String) : Bool :=
  containsText key "password" || containsText key "secret" || containsText key "key.pem"

/-- A pair as the Debug text shows it. -/
def redactPair (p : String × String) : String × String :=
  if hidesKey p.1 then (p.1, "<redacted>") else p

/-- `impl fmt::Debug for Options`; the formatter of the standard library is given the name of
the struct, its one field, and what the field shows. -/
def Options.debug (debugStruct : String → String → List (String × String) → String)
    (o : Options) : String :=
  debugStruct "Options" "entries" (o.allEntries.map redactPair)

/-! ## Calls that differ in secrets only -/

/-- Pairs with one key, and one value unless the key is hidden. -/
def SamePair (p p' : String × String) : Prop :=
  p.1 = p'.1 ∧ (¬ hidesKey p.1 → p.2 = p'.2)

/-- One call with, maybe, other secrets. -/
inductive Call.SameButSecrets : Call → Call → Prop
  | refl (call : Call) : SameButSecrets call call
  | saslPlain (username password password' : String) :
      SameButSecrets (.saslPlain username password) (.saslPlain username password')
  | saslScramSha256 (username password password' : String) :
      SameButSecrets (.saslScramSha256 username password) (.saslScramSha256 username password')
  | saslScramSha512 (username password password' : String) :
      SameButSecrets (.saslScramSha512 username password) (.saslScramSha512 username password')
  | saslOauthbearerOidc (tokenEndpointUrl clientId clientSecret clientSecret' : String) :
      SameButSecrets (.saslOauthbearerOidc tokenEndpointUrl clientId clientSecret)
        (.saslOauthbearerOidc tokenEndpointUrl clientId clientSecret')
  | tlsClientCertificatePem (certificatePem keyPem keyPem' : String) :
      SameButSecrets (.tlsClientCertificatePem certificatePem keyPem)
        (.tlsClientCertificatePem certificatePem keyPem')
  | kafkaOption (key value value' : String) (h : SamePair (key, value) (key, value')) :
      SameButSecrets (.kafkaOption key value) (.kafkaOption key value')
  | kafkaOptions (pairs pairs' : List (String × String)) (h : List.Forall₂ SamePair pairs pairs') :
      SameButSecrets (.kafkaOptions pairs) (.kafkaOptions pairs')

/-! ## Hiding -/

/-- The call with its secrets hidden. -/
def Call.hide : Call → Call
  | .saslPlain username _ => .saslPlain username "<redacted>"
  | .saslScramSha256 username _ => .saslScramSha256 username "<redacted>"
  | .saslScramSha512 username _ => .saslScramSha512 username "<redacted>"
  | .saslOauthbearerOidc tokenEndpointUrl clientId _ =>
      .saslOauthbearerOidc tokenEndpointUrl clientId "<redacted>"
  | .tlsClientCertificatePem certificatePem _ =>
      .tlsClientCertificatePem certificatePem "<redacted>"
  | .kafkaOption key value => .kafkaOption key (redactPair (key, value)).2
  | .kafkaOptions pairs => .kafkaOptions (pairs.map redactPair)
  | call => call

def Sasl.hide : Sasl → Sasl
  | .userPass mechanism username _ => .userPass mechanism username "<redacted>"
  | .oauthbearerOidc tokenEndpoint clientId _ scope extensions =>
      .oauthbearerOidc tokenEndpoint clientId "<redacted>" scope extensions
  | sasl => sasl

def Options.hide (o : Options) : Options where
  entries := o.entries.map redactPair
  tls := o.tls
  sslEntries := o.sslEntries.map redactPair
  sasl := o.sasl.map Sasl.hide

@[simp] theorem redactPair_fst (p : String × String) : (redactPair p).1 = p.1 := by
  unfold redactPair
  split_ifs <;> rfl

theorem redactPair_of_hidden {key value : String} (h : hidesKey key = true) :
    redactPair (key, value) = (key, "<redacted>") := if_pos h

theorem redactPair_of_shown {key value : String} (h : hidesKey key = false) :
    redactPair (key, value) = (key, value) := if_neg (by simp [h])

@[simp] theorem redactPair_redactPair (p : String × String) :
    redactPair (redactPair p) = redactPair p := by
  by_cases h : hidesKey p.1 = true
  · rw [redactPair, redactPair_fst, if_pos h, redactPair, if_pos h]
  · rw [redactPair, redactPair_fst, if_neg h]

theorem SamePair.redactPair_eq {p p' : String × String} (h : SamePair p p') :
    redactPair p = redactPair p' := by
  obtain ⟨key, value⟩ := p
  obtain ⟨key', value'⟩ := p'
  obtain ⟨rfl, hvalue⟩ := h
  by_cases hhidden : hidesKey key = true
  · rw [redactPair_of_hidden hhidden, redactPair_of_hidden hhidden]
  · obtain rfl := hvalue hhidden
    rfl

theorem Call.SameButSecrets.hide_eq {call call' : Call} (h : call.SameButSecrets call') :
    call.hide = call'.hide := by
  cases h with
  | refl => rfl
  | saslPlain | saslScramSha256 | saslScramSha512 | saslOauthbearerOidc
  | tlsClientCertificatePem => rfl
  | kafkaOption key value value' h => rw [Call.hide, h.redactPair_eq, Call.hide]
  | kafkaOptions pairs pairs' h =>
      rw [Call.hide, Call.hide]
      congr 1
      induction h with
      | nil => rfl
      | cons hpair _ ih => rw [List.map_cons, List.map_cons, hpair.redactPair_eq, ih]

/-! ## Hiding commutes with the setters -/

theorem hide_push (o : Options) (key value : String) :
    (o.push key value).hide = o.hide.push key (redactPair (key, value)).2 := by
  have hpair : redactPair (key, value) = (key, (redactPair (key, value)).2) :=
    Prod.ext (redactPair_fst _) rfl
  simp only [Options.hide, Options.push, List.map_append, List.map_cons, List.map_nil]
  rw [← hpair]

theorem hide_pushSsl (o : Options) (key value : String) :
    (o.pushSsl key value).hide = o.hide.pushSsl key (redactPair (key, value)).2 := by
  have hpair : redactPair (key, value) = (key, (redactPair (key, value)).2) :=
    Prod.ext (redactPair_fst _) rfl
  simp only [Options.hide, Options.pushSsl, List.map_append, List.map_cons, List.map_nil]
  rw [← hpair]

theorem hide_foldl_push (pairs : List (String × String)) (o : Options) :
    (pairs.foldl (fun o p => o.push p.1 p.2) o).hide =
      (pairs.map redactPair).foldl (fun o p => o.push p.1 p.2) o.hide := by
  induction pairs generalizing o with
  | nil => rfl
  | cons p pairs ih =>
      rw [List.foldl_cons, ih, List.map_cons, List.foldl_cons, hide_push, redactPair_fst]

/-- No client setter writes a key that is hidden. -/
theorem not_hidesKey_setter (setter : ClientSetter) : hidesKey setter.key = false := by
  cases setter <;> (simp only [ClientSetter.key]; decide +kernel)

theorem hide_apply (o : Options) (call : Call) :
    (o.apply durationMsCeil call).hide = o.hide.apply durationMsCeil call.hide := by
  cases call
  case client setter =>
    simp only [Options.apply, Call.hide]
    rw [hide_push, redactPair_of_shown (not_hidesKey_setter setter)]
  case kafkaOption key value =>
    simp only [Options.apply, Call.hide]
    rw [hide_push]
  case kafkaOptions pairs => exact hide_foldl_push pairs o
  case tlsCaLocation | tlsCaPem | disableCertificateVerification | disableHostnameVerification =>
    simp only [Options.apply, Call.hide]
    rw [hide_pushSsl, redactPair_of_shown (by decide +kernel)]
  case tlsClientCertificate =>
    simp only [Options.apply, Call.hide]
    rw [hide_pushSsl, hide_pushSsl, redactPair_of_shown (by decide +kernel),
      redactPair_of_shown (by decide +kernel)]
  case tlsClientCertificatePem =>
    simp only [Options.apply, Call.hide]
    rw [hide_pushSsl, hide_pushSsl, redactPair_of_shown (by decide +kernel),
      redactPair_of_hidden (by decide +kernel)]
  -- a refinement finds the mechanism it refines behind the hiding too
  case awsRegion | awsProfile | awsAssumeRole | oauthbearerScope | oauthbearerExtensions |
      gcpPrincipal | gcpCredentialsFile =>
    obtain ⟨entries, tls, sslEntries, sasl⟩ := o
    rcases sasl with _ | ⟨_ | _ | _ | _⟩ <;> rfl
  all_goals rfl

/-- A builder with its secrets hidden is the builder of the calls with theirs hidden. -/
theorem hide_build (calls : List Call) :
    (Options.build durationMsCeil calls).hide =
      Options.build durationMsCeil (calls.map Call.hide) := by
  have hrun : ∀ (calls : List Call) (o : Options),
      (calls.foldl (Options.apply durationMsCeil) o).hide =
        (calls.map Call.hide).foldl (Options.apply durationMsCeil) o.hide := by
    intro calls
    induction calls with
    | nil => exact fun o => rfl
    | cons call calls ih =>
        intro o
        rw [List.foldl_cons, ih, List.map_cons, List.foldl_cons, hide_apply]
  exact hrun calls .new

/-! ## What is read of a builder -/

section

variable (o : Options)

theorem securityActive_hide : o.hide.securityActive = o.securityActive := by
  rw [Options.securityActive, Options.securityActive, Options.hide, Option.isSome_map]

theorem protocol_hide : o.hide.protocol = o.protocol := by
  rw [Options.protocol, Options.protocol, Options.hide, Option.isSome_map]

theorem redactPair_optPair {key : String} (h : hidesKey key = false) (value : Option String) :
    (optPair key value).map redactPair = optPair key value := by
  cases value with
  | none => rfl
  | some v => exact congrArg (fun p => [p]) (redactPair_of_shown h)

/-- A mechanism writes its secrets under keys that are hidden. -/
theorem saslEntries_hide (sasl : Sasl) : sasl.hide.entries = sasl.entries.map redactPair := by
  cases sasl with
  | userPass mechanism username password =>
      simp only [Sasl.hide, Sasl.entries, List.map_cons, List.map_nil]
      rw [redactPair_of_shown (by decide +kernel), redactPair_of_shown (by decide +kernel),
        redactPair_of_hidden (by decide +kernel)]
  | awsMskIam region profile roleArn roleSessionName =>
      simp only [Sasl.hide, Sasl.entries, List.map_append, List.map_cons, List.map_nil]
      rw [redactPair_of_shown (by decide +kernel), redactPair_optPair (by decide +kernel),
        redactPair_optPair (by decide +kernel), redactPair_optPair (by decide +kernel),
        redactPair_optPair (by decide +kernel)]
  | oauthbearerOidc tokenEndpoint clientId clientSecret scope extensions =>
      have hextensions : (if extensions.isEmpty then []
          else [("sasl.oauthbearer.extensions", joinExtensions extensions)]).map redactPair =
          if extensions.isEmpty then []
          else [("sasl.oauthbearer.extensions", joinExtensions extensions)] := by
        split_ifs
        · rfl
        · exact congrArg (fun p => [p]) (redactPair_of_shown (by decide +kernel))
      simp only [Sasl.hide, Sasl.entries, List.map_append, List.map_cons, List.map_nil]
      rw [redactPair_of_shown (by decide +kernel), redactPair_of_shown (by decide +kernel),
        redactPair_of_shown (by decide +kernel), redactPair_of_hidden (by decide +kernel),
        redactPair_optPair (by decide +kernel), hextensions]
  | gcpIam principal credentialsFile =>
      simp only [Sasl.hide, Sasl.entries, List.map_append, List.map_cons, List.map_nil]
      rw [redactPair_of_shown (by decide +kernel), redactPair_of_shown (by decide +kernel),
        redactPair_optPair (by decide +kernel), redactPair_optPair (by decide +kernel)]

theorem allEntries_hide : o.hide.allEntries = o.allEntries.map redactPair := by
  have hsasl : (o.sasl.map Sasl.hide).elim [] Sasl.entries =
      (o.sasl.elim [] Sasl.entries).map redactPair := by
    cases o.sasl with
    | none => rfl
    | some sasl => exact saslEntries_hide sasl
  have hprotocol : redactPair ("security.protocol", o.protocol) =
      ("security.protocol", o.protocol) := redactPair_of_shown (by decide +kernel)
  have hsecurity : o.hide.securityEntries = o.securityEntries.map redactPair := by
    rw [Options.securityEntries, Options.securityEntries, securityActive_hide, protocol_hide]
    split_ifs
    · rw [List.map_cons, List.map_append, hprotocol, ← hsasl, Options.hide]
    · rfl
  rw [Options.allEntries, hsecurity, Options.allEntries, List.map_append, Options.hide]

/-- The Debug text shows nothing that hiding takes away. -/
theorem debug_hide (debugStruct : String → String → List (String × String) → String) :
    o.hide.debug debugStruct = o.debug debugStruct := by
  rw [Options.debug, Options.debug, allEntries_hide, List.map_map]
  congr 1
  exact List.map_congr_left fun p _ => redactPair_redactPair p

theorem keys_map_redactPair (pairs : List (String × String)) :
    (pairs.map redactPair).map Prod.fst = pairs.map Prod.fst := by
  rw [List.map_map]
  exact List.map_congr_left fun p _ => redactPair_fst p

/-- `validate` reads keys and the kind of the mechanism only. -/
theorem validate_hide : o.hide.validate = o.validate := by
  have hsasl : (o.sasl.map Sasl.hide).elim [] Options.saslKeys =
      o.sasl.elim [] Options.saslKeys := by
    cases o.sasl with
    | none => rfl
    | some sasl => cases sasl <;> rfl
  have hlisted : o.hide.typedSecurityKeys = o.typedSecurityKeys := by
    rw [Options.typedSecurityKeys, Options.typedSecurityKeys, securityActive_hide, Options.hide,
      keys_map_redactPair, hsasl]
  have hconflicts : o.hide.conflicts = o.conflicts := by
    rw [Options.conflicts, hlisted, Options.conflicts, Options.hide, keys_map_redactPair]
  rw [Options.validate, hlisted, hconflicts, Options.validate]

end

/-- Two builders of one sequence of calls with, maybe, other secrets have the same Debug text
and the same verdict of `validate`. -/
theorem debug_independent (durationMsCeil : ℕ → ℕ) (calls calls' : List Call)
    (h : List.Forall₂ Call.SameButSecrets calls calls')
    (debugStruct : String → String → List (String × String) → String) :
    (Options.build durationMsCeil calls).debug debugStruct =
        (Options.build durationMsCeil calls').debug debugStruct ∧
      (Options.build durationMsCeil calls).validate =
        (Options.build durationMsCeil calls').validate := by
  have hhidden : calls.map Call.hide = calls'.map Call.hide := by
    induction h with
    | nil => rfl
    | cons hcall _ ih => rw [List.map_cons, List.map_cons, hcall.hide_eq, ih]
  have hbuild : (Options.build durationMsCeil calls).hide =
      (Options.build durationMsCeil calls').hide := by
    rw [hide_build, hhidden, ← hide_build]
  refine ⟨?_, ?_⟩
  · rw [← debug_hide, hbuild, debug_hide]
  · rw [← validate_hide, hbuild, validate_hide]

/-- Two passwords, two inline keys, and a conflict over the password's key. -/
theorem debug_independent_passwords :
    let calls := [Call.saslPlain "u" "hunter2", .tlsClientCertificatePem "cert" "key",
      .kafkaOption "sasl.password" "a"]
    let calls' := [Call.saslPlain "u" "swordfish", .tlsClientCertificatePem "cert" "other",
      .kafkaOption "sasl.password" "b"]
    (Options.build id calls).allEntries ≠ (Options.build id calls').allEntries ∧
      ∀ debugStruct, (Options.build id calls).debug debugStruct =
          (Options.build id calls').debug debugStruct ∧
        (Options.build id calls).validate = (Options.build id calls').validate := by
  intro calls calls'
  refine ⟨by decide +kernel, fun debugStruct => debug_independent id calls calls' ?_ debugStruct⟩
  have hpair : SamePair ("sasl.password", "a") ("sasl.password", "b") :=
    ⟨rfl, fun hshown => absurd (by decide +kernel) hshown⟩
  exact .cons (.saslPlain ..) (.cons (.tlsClientCertificatePem ..)
    (.cons (.kafkaOption _ _ _ hpair) .nil))

end LlingrKafka.Builder

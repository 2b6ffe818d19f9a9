import LlingrKafka.Builder.Conflicts
import LlingrKafka.Options.NoSilentNoOp
import LlingrKafka.Security.Extensions

/-!
# The extensions across the boundary

The builder joins the extensions with commas and equals signs and the bridge splits them
there again, without escapes.  `extensions_survive_iff` says which pairs come out as they
went in.  The keys and the values that count have to be plain; in a value that a later pair
overrides, a comma may stand as long as what it hides is overridden too.
-/

namespace LlingrKafka.Builder

open Security LlingrKafka.Options

/-- The text of a pair. -/
def pairText (p : String × String) : List Char := p.1.toList ++ '=' :: p.2.toList

/-- The assignments that stand in a value behind its first comma. -/
def hidden (value : String) : List (String × String) :=
  assignments (value.toList.splitOn ',').tail

/-- Every pair, and behind it what its value hides. -/
def spread (pairs : List (String × String)) : List (String × String) :=
  pairs.flatMap fun p => p :: hidden p.2

/-- Some part of the text of a pair is no assignment, or the pairs that count are plain and
nothing that is hidden counts. -/
def Survive (pairs : List (String × String)) : Prop :=
  (∃ p ∈ pairs, ∃ piece ∈ (pairText p).splitOn ',', Malformed piece) ∨
    (∀ p ∈ pairs, Assoc.last pairs p.1 = some p.2 → Plain p.1 p.2) ∧
      ∀ key, Assoc.last (spread pairs) key = Assoc.last pairs key

/-! ## The joined text -/

/-- The bridge splits the joined text into the pieces of each pair. -/
theorem pieces_joinExtensions {pairs : List (String × String)} (h : pairs ≠ []) :
    (joinExtensions pairs).toList.splitOn ',' =
      pairs.flatMap fun p => (pairText p).splitOn ',' := by
  have hne : pairs.map pairText ≠ [] := by simpa using h
  have htexts : (pairs.map fun p => p.1 ++ "=" ++ p.2).map String.toList = pairs.map pairText := by
    rw [List.map_map]
    refine List.map_congr_left fun p _ => ?_
    simp [pairText]
  rw [joinExtensions, String.toList_intercalate, htexts]
  exact (Text.splitOn_intercalate_flatMap hne).trans (List.flatMap_map _ _ _)

theorem parse_joinExtensions_eq_ok {pairs : List (String × String)} {out : String → Option String} :
    parseOAuthExtensions (joinExtensions pairs) = .ok out ↔
      (∀ p ∈ pairs, ∀ piece ∈ (pairText p).splitOn ',', ¬ Malformed piece) ∧
        out = Assoc.last (pairs.flatMap fun p => assignments ((pairText p).splitOn ',')) := by
  rw [parseOAuthExtensions_eq_ok]
  cases pairs with
  | nil =>
      have hblank : ∀ piece ∈ (joinExtensions []).toList.splitOn ',', ¬ Malformed piece := by
        decide
      exact and_congr_left fun _ => iff_of_true hblank (by simp)
  | cons p pairs =>
      rw [pieces_joinExtensions (List.cons_ne_nil p pairs), assignments, List.filterMap_flatMap]
      refine and_congr ?_ Iff.rfl
      simp only [List.mem_flatMap]
      exact ⟨fun h q hq piece hpiece => h piece ⟨q, hq, hpiece⟩,
        fun h piece ⟨q, hq, hpiece⟩ => h q hq piece hpiece⟩

/-! ## What is read -/

/-- A plain key is read with the value before the first comma. -/
theorem assignments_pairText {key : String} (value : String) (hne : key ≠ "")
    (htrim : Text.trim key.toList = key.toList) (hequals : '=' ∉ key.toList)
    (hcomma : ',' ∉ key.toList) :
    ∃ first, (',' ∉ value.toList → Text.trim value.toList = value.toList → first = value) ∧
      assignments ((pairText (key, value)).splitOn ',') = (key, first) :: hidden value := by
  have hkey : key.toList ≠ [] := by
    intro hnil
    exact hne (String.toList_inj.mp hnil)
  have hsplit : (pairText (key, value)).splitOn ',' =
      (value.toList.splitOn ',').modifyHead fun piece => key.toList ++ '=' :: piece := by
    rw [pairText, Text.splitOn_append hcomma, List.splitOn_cons_eq_if_modifyHead,
      if_neg (by decide), List.modifyHead_modifyHead]
    rfl
  cases hvalue : value.toList.splitOn ',' with
  | nil => exact absurd hvalue (List.splitOn_ne_nil _ _)
  | cons piece pieces =>
      refine ⟨String.ofList (Text.trim piece), fun hplain hvalueTrim => ?_, ?_⟩
      · rw [List.splitOn_eq_singleton hplain] at hvalue
        obtain ⟨rfl, -⟩ := List.cons.inj hvalue
        rw [hvalueTrim, String.ofList_toList]
      · have hread : assignment (key.toList ++ '=' :: piece) =
            some (key, String.ofList (Text.trim piece)) := by
          rw [assignment, Text.cut_append hequals, Option.bind_some]
          simp only
          rw [htrim, if_neg hkey, String.ofList_toList]
        rw [hsplit, hvalue, List.modifyHead_cons, assignments_cons, assignment_trim, hread, hidden,
          hvalue]
        rfl

/-- The last value of a key is one of its pairs. -/
theorem exists_last {pairs : List (String × String)} {p : String × String} (h : p ∈ pairs) :
    ∃ value, (p.1, value) ∈ pairs ∧ Assoc.last pairs p.1 = some value := by
  cases hlast : Assoc.last pairs p.1 with
  | none => exact absurd (List.mem_map_of_mem h) (Assoc.last_eq_none_iff.mp hlast)
  | some value =>
      obtain ⟨before, after, heq, -⟩ := Assoc.last_eq_some_iff.mp hlast
      exact ⟨value, heq ▸ List.mem_append_right _ List.mem_cons_self, rfl⟩

/-- With plain pairs where they count, what is read is the pairs and what they hide. -/
theorem last_assignments {pairs : List (String × String)}
    (h : ∀ p ∈ pairs, Assoc.last pairs p.1 = some p.2 → Plain p.1 p.2) (key : String) :
    Assoc.last (pairs.flatMap fun p => assignments ((pairText p).splitOn ',')) key =
      Assoc.last (spread pairs) key := by
  induction pairs with
  | nil => rfl
  | cons p pairs ih =>
      have hrest : ∀ q ∈ pairs, Assoc.last pairs q.1 = some q.2 → Plain q.1 q.2 := by
        intro q hq hlast
        refine h q (List.mem_cons_of_mem _ hq) ?_
        rw [Assoc.last, hlast, Option.some_or]
      obtain ⟨value, hmem, hvalue⟩ := exists_last (List.mem_cons_self : p ∈ p :: pairs)
      have hkey := h (p.1, value) hmem hvalue
      obtain ⟨first, hfirst, hread⟩ := assignments_pairText p.2 hkey.key_ne
        hkey.key_trim hkey.key_equals hkey.key_comma
      rw [List.flatMap_cons, spread, List.flatMap_cons, ← spread, Assoc.last_append,
        Assoc.last_append, ih hrest, hread]
      -- the first value matters only when nothing later has the key
      cases hlater : Assoc.last (spread pairs) key with
      | some later => rw [Option.some_or, Option.some_or]
      | none =>
          rw [Option.none_or, Option.none_or, Assoc.last, Assoc.last]
          by_cases heq : p.1 = key
          · have hnone : Assoc.last pairs key = none := by
              rw [Assoc.last_eq_none_iff] at hlater ⊢
              intro hkeys
              obtain ⟨q, hq, hqkey⟩ := List.mem_map.mp hkeys
              exact hlater (List.mem_map.mpr
                ⟨q, List.mem_flatMap.mpr ⟨q, hq, List.mem_cons_self⟩, hqkey⟩)
            have hplain := h p List.mem_cons_self (by rw [Assoc.last, heq, hnone, if_pos rfl]; rfl)
            rw [hfirst hplain.value_comma hplain.value_trim]
          · rw [if_neg heq, if_neg heq]

/-- What is read in the end is plain. -/
theorem plain_of_parse {pairs : List (String × String)} {key value : String}
    (h : Assoc.last (pairs.flatMap fun p => assignments ((pairText p).splitOn ',')) key =
      some value) : Plain key value := by
  obtain ⟨before, after, heq, -⟩ := Assoc.last_eq_some_iff.mp h
  have hmem : (key, value) ∈ pairs.flatMap fun p => assignments ((pairText p).splitOn ',') :=
    heq ▸ List.mem_append_right _ List.mem_cons_self
  obtain ⟨p, -, hp⟩ := List.mem_flatMap.mp hmem
  obtain ⟨piece, hpiece, hread⟩ := List.mem_filterMap.mp hp
  exact plain_of_assignment (Text.not_mem_of_mem_splitOn hpiece) hread

/-- Joined and split again, the extensions are refused or the pairs as they were given exactly
when they survive. -/
theorem parse_joinExtensions_iff (pairs : List (String × String)) :
    ((∃ fault, parseOAuthExtensions (joinExtensions pairs) = .error fault) ∨
      parseOAuthExtensions (joinExtensions pairs) = .ok (Assoc.last pairs)) ↔ Survive pairs := by
  by_cases hmalformed : ∃ p ∈ pairs, ∃ piece ∈ (pairText p).splitOn ',', Malformed piece
  · refine iff_of_true (.inl ?_) (.inl hmalformed)
    cases hparse : parseOAuthExtensions (joinExtensions pairs) with
    | error fault => exact ⟨fault, rfl⟩
    | ok out =>
        obtain ⟨p, hp, piece, hpiece, hbad⟩ := hmalformed
        exact absurd hbad ((parse_joinExtensions_eq_ok.mp hparse).1 p hp piece hpiece)
  · have hfine : ∀ p ∈ pairs, ∀ piece ∈ (pairText p).splitOn ',', ¬ Malformed piece :=
      fun p hp piece hpiece hbad => hmalformed ⟨p, hp, piece, hpiece, hbad⟩
    have hparse : ∀ out, parseOAuthExtensions (joinExtensions pairs) = .ok out ↔
        out = Assoc.last (pairs.flatMap fun p => assignments ((pairText p).splitOn ',')) := by
      intro out
      rw [parse_joinExtensions_eq_ok]
      exact and_iff_right hfine
    have hok := (hparse _).mpr rfl
    have hno : ¬ ∃ fault, parseOAuthExtensions (joinExtensions pairs) = .error fault := by
      rintro ⟨fault, hfault⟩
      rw [hok] at hfault
      cases hfault
    rw [or_iff_right hno, hparse, Survive, or_iff_right hmalformed]
    constructor
    · intro heq
      have hplain : ∀ p ∈ pairs, Assoc.last pairs p.1 = some p.2 → Plain p.1 p.2 := by
        intro p _ hlast
        rw [heq] at hlast
        exact plain_of_parse hlast
      refine ⟨hplain, fun key => ?_⟩
      rw [← last_assignments hplain, ← heq]
    · rintro ⟨hplain, hspread⟩
      funext key
      rw [last_assignments hplain, hspread]

/-! ## The mechanism that is built -/

section

variable {Roots Cert : Type} {env : SecurityEnv Roots Cert} {durationMsCeil : ℕ → ℕ}
  {calls : List Call} {m : GoMap String String} {r : FranzOptions Roots Cert}
  {tokenEndpoint clientId clientSecret : String} {scope : Option String}
  {pairs : List (String × String)}

/-- The field of the extensions holds the joined text, which is empty when there are none. -/
theorem given_extensions (hvalid : (Options.build durationMsCeil calls).validate = .ok ())
    (hm : (Options.build durationMsCeil calls).Arrives m)
    (hsasl : .oauthbearerOidc tokenEndpoint clientId clientSecret scope pairs ∈
      (Options.build durationMsCeil calls).sasl) :
    given (securityPairs m.sorted) .oauthExtensions = joinExtensions pairs := by
  cases pairs with
  | nil =>
      have hactive : (Options.build durationMsCeil calls).securityActive = true := by
        simp [Options.securityActive, Option.mem_def.mp hsasl]
      have hentries : ∀ p ∈ (Options.build durationMsCeil calls).entries,
          p.1 ≠ SecurityField.oauthExtensions.key := by
        intro p hp heq
        refine Options.validate_eq_ok_iff.mp hvalid p hp ?_
        rw [heq, Options.typedSecurityKeys, if_pos hactive, Option.mem_def.mp hsasl]
        refine List.mem_cons_of_mem _ (List.mem_append_right _ ?_)
        simp [Options.saslKeys, SecurityField.key]
      have hnone : Assoc.last (Options.build durationMsCeil calls).securityEntries
          SecurityField.oauthExtensions.key = none := by
        rw [Assoc.last_eq_none_iff]
        intro hmem
        rcases mem_securityEntries (typedSecurity_build calls) hmem with htls | ⟨sasl, hs, hwritten⟩
        · exact absurd htls (by decide)
        · obtain rfl := Option.some_inj.mp (hs.symm.trans hsasl)
          cases scope <;> simp [Sasl.entries, optPair, SecurityField.key] at hwritten
      rw [given_sorted fun h => absurd h (by decide), hm.get?, last_allEntries_of_typed hentries,
        hnone]
      rfl
  | cons p pairs =>
      refine given_of_sasl (f := .oauthExtensions) (typedSecurity_build calls) hvalid hm hsasl ?_
      exact List.mem_append_right _ (List.mem_singleton_self
        ("sasl.oauthbearer.extensions", joinExtensions (p :: pairs)))

/-- What the bridge builds sends the extensions that are parsed from the joined text. -/
theorem extensions_of_franzOptions (hvalid : (Options.build durationMsCeil calls).validate = .ok ())
    (hm : (Options.build durationMsCeil calls).Arrives m)
    (hsasl : .oauthbearerOidc tokenEndpoint clientId clientSecret scope pairs ∈
      (Options.build durationMsCeil calls).sasl)
    (h : franzOptions env m = .ok r) :
    (∃ mechanism, .security (.sasl mechanism) ∈ r.opts) ∧
      ∀ mechanism, .security (.sasl mechanism) ∈ r.opts →
        parseOAuthExtensions (joinExtensions pairs) = .ok mechanism.extensions := by
  obtain ⟨s, securityOpts, tableOpts, hsecurity, -, hopts⟩ :=
    (consumed_of_franzOptions h).opts
  have hfields := hsecurity.fields
  have hposture := hsecurity.posture
  have htyped : TypedSecurity (Options.build durationMsCeil calls) := typedSecurity_build calls
  have hmem : ∀ mechanism, KgoOpt.security (.sasl mechanism) ∈ r.opts ↔
      .sasl mechanism ∈ securityOpts := by
    intro mechanism
    rw [hopts]
    simp
  have hname : s.mechanismName = "OAUTHBEARER" := by
    have hfield : s.field .mechanism = "OAUTHBEARER" := by
      rw [hfields]
      exact given_of_sasl (f := .mechanism) htyped hvalid hm hsasl
        (by simp [Sasl.entries, SecurityField.key])
    rw [FranzSecurity.mechanismName, hfield]
    decide
  constructor
  · have huses : UsesSASL (s.field .protocol) := by
      have hsome := Option.mem_def.mp hsasl
      rw [hfields, given_protocol htyped hvalid hm (by simp [Options.securityActive, hsome]),
        Options.protocol, hsome, Option.isSome_some]
      cases (Options.build durationMsCeil calls).tls <;> decide
    obtain ⟨mechanism, hmechanism⟩ := hposture.sasl.mpr huses
    exact ⟨mechanism, (hmem mechanism).mpr hmechanism⟩
  · intro mechanism hmechanism
    rw [← given_extensions hvalid hm hsasl, ← hfields]
    exact extensions_of_selected (hposture.mechanism _ ((hmem mechanism).mp hmechanism)) hname

end

/-- The extensions cross the boundary.  The joined text is refused, or parsed to the last value
of every key, exactly when the pairs survive; and the text the bridge is given is this one, so
that the client it builds sends what the text was parsed to. -/
theorem extensions_survive_iff (pairs : List (String × String)) :
    (((∃ fault, parseOAuthExtensions (joinExtensions pairs) = .error fault) ∨
      parseOAuthExtensions (joinExtensions pairs) = .ok (Assoc.last pairs)) ↔ Survive pairs) ∧
    ∀ {Roots Cert : Type} (env : SecurityEnv Roots Cert) (durationMsCeil : ℕ → ℕ)
      (calls : List Call) (m : GoMap String String) (r : FranzOptions Roots Cert)
      (tokenEndpoint clientId clientSecret : String) (scope : Option String),
      (Options.build durationMsCeil calls).sasl =
        some (.oauthbearerOidc tokenEndpoint clientId clientSecret scope pairs) →
      (Options.build durationMsCeil calls).validate = .ok () →
      (Options.build durationMsCeil calls).Arrives m → franzOptions env m = .ok r →
      (∃ mechanism, .security (.sasl mechanism) ∈ r.opts) ∧
      (∀ mechanism, .security (.sasl mechanism) ∈ r.opts →
        parseOAuthExtensions (joinExtensions pairs) = .ok mechanism.extensions) ∧
      ((∀ mechanism, .security (.sasl mechanism) ∈ r.opts →
        mechanism.extensions = Assoc.last pairs) ↔ Survive pairs) := by
  refine ⟨parse_joinExtensions_iff pairs, ?_⟩
  intro Roots Cert env durationMsCeil calls m r tokenEndpoint clientId clientSecret scope hsasl
    hvalid hm h
  obtain ⟨⟨mechanism, hmem⟩, hparse⟩ := extensions_of_franzOptions hvalid hm hsasl h
  refine ⟨⟨mechanism, hmem⟩, hparse, ?_⟩
  rw [← parse_joinExtensions_iff]
  constructor
  · intro hall
    rw [hparse mechanism hmem, hall mechanism hmem]
    exact .inr rfl
  · intro hsurvive other hother
    rw [hparse other hother] at hsurvive
    rcases hsurvive with ⟨fault, hfault⟩ | hok
    · cases hfault
    · exact Except.ok.inj hok

/-- A builder with extensions. -/
def extensionCalls (pairs : List (String × String)) : List Call :=
  [.tls, .saslOauthbearerOidc "https://idp/token" "id" "secret", .oauthbearerExtensions pairs]

/-- A comma in a value: the rest of it is read as an extension of its own. -/
def commaPairs : List (String × String) := [("a", "b,c=d")]

/-- It is accepted, and sent as two extensions. -/
theorem extensions_split :
    (Options.build id (extensionCalls commaPairs)).validate = .ok () ∧
      ∃ r, franzOptions openEnv (Options.build id (extensionCalls commaPairs)).arrivalMap = .ok r ∧
        ∃ mechanism, .security (.sasl mechanism) ∈ r.opts ∧
          mechanism.extensions "a" = some "b" ∧ mechanism.extensions "c" = some "d" ∧
          mechanism.extensions ≠ Assoc.last commaPairs := by
  refine ⟨rfl, ?_⟩
  have haccepted : (franzOptions openEnv
      (Options.build id (extensionCalls commaPairs)).arrivalMap).toOption.isSome = true := by
    decide +kernel
  cases hresult : franzOptions openEnv
      (Options.build id (extensionCalls commaPairs)).arrivalMap with
  | error e =>
      rw [hresult] at haccepted
      cases haccepted
  | ok r =>
      obtain ⟨⟨mechanism, hmem⟩, hparse⟩ := extensions_of_franzOptions (by rfl)
        (Options.arrives_arrivalMap _) (by rfl) hresult
      have hread : (parseOAuthExtensions (joinExtensions commaPairs)).toOption.map
          (fun extensions => (extensions "a", extensions "c")) = some (some "b", some "d") := by
        decide
      rw [hparse mechanism hmem] at hread
      obtain ⟨ha, hc⟩ := Prod.mk.inj (Option.some_inj.mp hread)
      refine ⟨r, rfl, mechanism, hmem, ha, hc, fun heq => ?_⟩
      rw [heq] at hc
      cases hc

/-- Extensions a broker asks for. -/
def clusterPairs : List (String × String) :=
  [("logicalCluster", "lkc-1"), ("identityPoolId", "pool-2")]

theorem extensions_survive_iff_cluster :
    ∃ r, franzOptions openEnv (Options.build id (extensionCalls clusterPairs)).arrivalMap = .ok r ∧
      ((∀ mechanism, .security (.sasl mechanism) ∈ r.opts →
        mechanism.extensions = Assoc.last clusterPairs) ↔ Survive clusterPairs) := by
  have haccepted : (franzOptions openEnv
      (Options.build id (extensionCalls clusterPairs)).arrivalMap).toOption.isSome = true := by
    decide +kernel
  cases hresult : franzOptions openEnv
      (Options.build id (extensionCalls clusterPairs)).arrivalMap with
  | error e =>
      rw [hresult] at haccepted
      cases haccepted
  | ok r =>
      exact ⟨r, rfl, ((extensions_survive_iff clusterPairs).2 openEnv id _ _ r _ _ _ _ rfl rfl
        (Options.arrives_arrivalMap _) hresult).2.2⟩

end LlingrKafka.Builder

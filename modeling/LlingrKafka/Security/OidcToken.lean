import LlingrKafka.Config.Decode
import LlingrKafka.Foundations.Text
import LlingrKafka.Foundations.Transducer
import LlingrKafka.Metrics.Time

/-!
# The OIDC token fetcher

`oidcTokenFetcher` (`bridge/oauth_oidc.go`): one client-credentials request to the token
endpoint, and the token cached until shortly before its expiry.  A call is a step of a
transducer; what the clock reads and how the endpoint answers are its input.  The mutex of
the fetcher makes calls of several handshakes one sequence.
-/

namespace LlingrKafka.Security

open FixedWidth JsonDecode Metrics

/-- The request to the token endpoint; identity and secret travel as Basic auth. -/
structure TokenRequest where
  endpoint : String
  form : List (String × String)
  username : String
  password : String
  deriving DecidableEq, Repr

/-- How the endpoint answers. -/
inductive Exchange
  | unreachable (e : String)
  | unreadable (e : String)
  | answered (statusCode : ℕ) (status : String) (body : Utf8.Bytes)

/-- What the fetcher calls outside the repository. -/
structure TokenEnv where
  /-- `url.QueryEscape`. -/
  queryEscape : String → String
  /-- Why no request can be made for an endpoint. -/
  requestError : String → Option String
  /-- The errors of `encoding/json`. -/
  syntaxError : Utf8.Bytes → String
  typeError : String → Json → String
  invalidNumber : String → String

/-- The fields `newOIDCTokenFetcher` sets. -/
structure TokenSource where
  endpoint : String
  clientID : String
  clientSecret : String
  scope : String
  deriving DecidableEq, Repr

/-- Why there is no token. -/
inductive FetchFault
  | building (e : String)
  | unreachable (endpoint e : String)
  | reading (e : String)
  | status (endpoint line body : String)
  | parsing (e : String)
  | noAccessToken (endpoint : String)
  deriving DecidableEq, Repr

def FetchFault.text : FetchFault → String
  | building e => "building token request: " ++ e
  | unreachable endpoint e => "token endpoint " ++ endpoint ++ " unreachable: " ++ e
  | reading e => "reading token response: " ++ e
  | status endpoint line body =>
      "token endpoint " ++ endpoint ++ " returned " ++ line ++ ": " ++ body
  | parsing e => "parsing token response: " ++ e
  | noAccessToken endpoint => "token endpoint " ++ endpoint ++ " returned no access_token"

/-! ## The response -/

/-- What is read of the response; `expiresIn` is the literal of a `json.Number`. -/
structure TokenResponse where
  accessToken : String
  expiresIn : String
  deriving DecidableEq, Repr

inductive TokenField
  | accessToken
  | expiresIn
  deriving DecidableEq, Repr

def TokenField.tag : TokenField → String
  | accessToken => "access_token"
  | expiresIn => "expires_in"

/-- The bytes of the body that are read. -/
def maxTokenResponse : ℕ := 2 ^ 20

/-- The lifetime in seconds; zero unless it is a positive 64-bit integer. -/
def TokenResponse.lifetime (r : TokenResponse) : ℤ :=
  if r.expiresIn = "" then 0
  else
    match Text.parseInt 64 r.expiresIn with
    | some n => if n > 0 then n else 0
    | none => 0

section

variable (env : TokenEnv) (source : TokenSource)

def TokenEnv.storeToken : TokenField → Decoder TokenResponse
  | .accessToken => fieldDecoder TokenResponse.accessToken (fun r v => { r with accessToken := v })
      (stringDecoder (env.typeError "string"))
  | .expiresIn => fieldDecoder TokenResponse.expiresIn (fun r v => { r with expiresIn := v })
      (numberDecoder env.invalidNumber (env.typeError "json.Number"))

/-- `json.Unmarshal` of the body. -/
def TokenEnv.unmarshal (body : Utf8.Bytes) : Except String TokenResponse :=
  match Json.parse Config.maxNestingDepth (Utf8.decodeRunes body) with
  | none => .error (env.syntaxError body)
  | some j =>
      match lenientDecoder [.accessToken, .expiresIn] TokenField.tag env.storeToken
          (env.typeError "struct") j ⟨"", ""⟩ with
      | .error e => .error e
      | .ok (_, some e) => .error e
      | .ok (r, none) => .ok r

def tokenRequest : TokenRequest where
  endpoint := source.endpoint
  form := ("grant_type", "client_credentials") ::
    if source.scope = "" then [] else [("scope", source.scope)]
  username := env.queryEscape source.clientID
  password := env.queryEscape source.clientSecret

/-- What an answer of the endpoint means. -/
def readResponse : Exchange → Except FetchFault (String × ℤ)
  | .unreachable e => .error (.unreachable source.endpoint e)
  | .unreadable e => .error (.reading e)
  | .answered statusCode status stream =>
      let body := stream.take maxTokenResponse
      if statusCode ≠ 200 then
        .error (.status source.endpoint status (Text.trimSpace (Utf8.decodeLossy body)))
      else
        match env.unmarshal body with
        | .error e => .error (.parsing e)
        | .ok r =>
            if r.accessToken = "" then .error (.noAccessToken source.endpoint)
            else .ok (r.accessToken, r.lifetime)

/-- `fetch`: the requests it sends, and the token with its lifetime in seconds. -/
def fetch (endpoint : TokenRequest → Exchange) :
    List TokenRequest × Except FetchFault (String × ℤ) :=
  match env.requestError source.endpoint with
  | some e => ([], .error (.building e))
  | none =>
      let request := tokenRequest env source
      ([request], readResponse env source (endpoint request))

end

/-! ## The cache -/

/-- `oidcRefreshLeeway`. -/
def oidcRefreshLeeway : ℤ := 30000000000

/-- The fields that change. -/
structure OidcTokenFetcher where
  token : String
  expiresAt : GoTime
  deriving DecidableEq, Repr

/-- A fetcher that has fetched nothing. -/
def OidcTokenFetcher.new : OidcTokenFetcher := ⟨"", .zero⟩

/-- The environment of one call: the clock as the cache is looked up and as a token is
stored, and the endpoint. -/
structure TokenCall where
  now : GoTime
  stored : GoTime
  endpoint : TokenRequest → Exchange

/-- How a call ends: the requests it sent, and what the caller gets. -/
structure Outcome where
  requests : List TokenRequest
  result : Except FetchFault String

/-- `time.Duration(expiresIn) * time.Second`. -/
def seconds (n : ℤ) : ℤ := wrap 64 (n * 1000000000)

/-- Whether the cached token is served. -/
def OidcTokenFetcher.fresh (f : OidcTokenFetcher) (now : GoTime) : Bool :=
  f.token ≠ "" && now.before (f.expiresAt.add (-oidcRefreshLeeway))

/-- `accessToken`. -/
def accessToken (env : TokenEnv) (source : TokenSource) (f : OidcTokenFetcher)
    (call : TokenCall) : OidcTokenFetcher × Outcome :=
  if f.fresh call.now then (f, ⟨[], .ok f.token⟩)
  else
    match fetch env source call.endpoint with
    | (requests, .error fault) => (f, ⟨requests, .error fault⟩)
    | (requests, .ok (token, lifetime)) =>
        (⟨token, call.stored.add (seconds lifetime)⟩, ⟨requests, .ok token⟩)

/-- The fetcher over its calls. -/
def tokenCache (env : TokenEnv) (source : TokenSource) :
    Transducer OidcTokenFetcher TokenCall Outcome :=
  ⟨accessToken env source⟩

end LlingrKafka.Security

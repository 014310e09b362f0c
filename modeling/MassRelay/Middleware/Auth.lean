import MassRelay.Services.Identity

/-!
# MassRelay.Middleware.Auth

From a validated token to the `Principal` of a stream: `buildRelayClaims` and
`stringOrStrings` of `web/middleware/auth.go`, and the first lines of
`NewCollabBidiStream` (`web/server/stream.go`).

Token validation itself is oneauth's. Its outcome is an input here
(`AuthRequest`): the subject, the scopes, the custom claims as decoded JSON and
the token's times. A `rooms` claim may be any JSON value, and three places read
emptiness their own way: `stringOrStrings` answers with no strings for a value
that holds none, `buildRelayClaims` stores that list whether or not the claim
was there, and `allowsRoom` takes an empty list for "any session".
-/

namespace MassRelay

/-- A decoded JSON value, Go's `any`. A missing map entry reads as `null`. -/
inductive Json
  | null
  | bool (b : Bool)
  | number (text : String)
  | string (s : String)
  | array (elements : List Json)
  | object (members : List (String × Json))

/-- What oneauth and the token parser leave on an upgrade request. -/
structure AuthRequest where
  userID : String
  scopes : List String
  /-- `GetCustomClaimsFromContext`: `none` is a nil map. -/
  custom : Option (String → Json)
  expiresAt : Option Nat
  issuedAt : Option Nat

structure RelayClaims where
  subject : String
  clientID : String
  scopes : List String
  rooms : List String
  expiresAt : Option Nat
  issuedAt : Option Nat

/-- The string of an array entry, `none` for any other value. -/
def Json.asString? : Json → Option String
  | .string s => some s
  | _ => none

/-- A claim that may be a string or an array of strings; other array entries are
skipped, and any other value gives Go's nil slice. -/
def stringOrStrings : Json → List String
  | .string s => [s]
  | .array elements => elements.filterMap Json.asString?
  | _ => []

def buildRelayClaims (r : AuthRequest) : RelayClaims :=
  let claims : RelayClaims :=
    { subject := r.userID, clientID := "", scopes := r.scopes, rooms := []
      expiresAt := r.expiresAt, issuedAt := r.issuedAt }
  match r.custom with
  | none => claims
  | some custom =>
    { claims with
      clientID := (custom "client_id").asString?.getD ""
      rooms := stringOrStrings (custom "rooms") }

/-- The `Principal` that `NewCollabBidiStream` attaches to the stream's context. -/
def streamPrincipal (claims : Option RelayClaims) : Ctx :=
  claims.map fun c => { subject := c.subject, clientID := c.clientID, rooms := c.rooms }

/-! ### The strings of a claim -/

/-- `s` is the claim itself or an entry of it. -/
def Json.HasString (v : Json) (s : String) : Prop :=
  v = .string s ∨ ∃ elements, v = .array elements ∧ Json.string s ∈ elements

theorem asString?_eq_some {v : Json} {s : String} : v.asString? = some s ↔ v = .string s := by
  cases v <;> simp [Json.asString?]

/-- `stringOrStrings` reads exactly the strings of the claim. -/
theorem mem_stringOrStrings {v : Json} {s : String} : s ∈ stringOrStrings v ↔ v.HasString s := by
  cases v with
  | string t => simp [stringOrStrings, Json.HasString, eq_comm]
  | array elements => simp [stringOrStrings, Json.HasString, asString?_eq_some]
  | _ => simp [stringOrStrings, Json.HasString]

/-- `custom` holds the `rooms` claim `v`. -/
def withRooms (r : AuthRequest) (v : Json) : AuthRequest :=
  { r with custom := some (Function.update (r.custom.getD fun _ => .null) "rooms" v) }

/-- The rooms a stream's principal carries are the strings of its token's claim. -/
theorem streamPrincipal_withRooms (r : AuthRequest) (v : Json) :
    ∃ p, streamPrincipal (some (buildRelayClaims (withRooms r v))) = some p ∧
      p.rooms = stringOrStrings v :=
  ⟨_, rfl, by simp [buildRelayClaims, withRooms]⟩

/-- The law of a rooms claim: a session it allows is non-empty and covered by one
of the strings of the claim. -/
def RoomsClaimConfines (r : AuthRequest) (v : Json) : Prop :=
  ∀ s, allowsRoom (streamPrincipal (some (buildRelayClaims (withRooms r v)))) s = true →
    s ≠ "" ∧ ∃ t, v.HasString t ∧ (t = s ∨ ∃ pre, t = pre ++ "*" ∧ pre.toList <+: s.toList)

/-- A rooms claim confines its token exactly when it holds at least one string.
Any other value decodes to no strings at all, which `allowsRoom` cannot tell from
an absent claim. -/
theorem roomsClaim_confines_iff (r : AuthRequest) (v : Json) :
    RoomsClaimConfines r v ↔ ∃ t, v.HasString t := by
  obtain ⟨p, hp, hrooms⟩ := streamPrincipal_withRooms r v
  unfold RoomsClaimConfines
  rw [hp]
  constructor
  · intro h
    by_contra hnone
    have hempty : p.rooms = [] := by
      rw [hrooms, List.eq_nil_iff_forall_not_mem]
      intro t ht
      exact hnone ⟨t, mem_stringOrStrings.mp ht⟩
    -- an unrestricted principal allows even the empty session id
    exact (h "" (allowsRoom_iff.mpr (Or.inl hempty))).1 rfl
  · rintro ⟨t, ht⟩ s hs
    rcases allowsRoom_iff.mp hs with hempty | ⟨hne, t', ht', hcov⟩
    · have hmem : t ∈ p.rooms := hrooms ▸ mem_stringOrStrings.mpr ht
      simp [hempty] at hmem
    · exact ⟨hne, t', mem_stringOrStrings.mp (hrooms ▸ ht'), hcov⟩

/-- An empty array, as a host may mint it for a user without rooms, opens every
session. -/
theorem emptyRoomsClaim_unconfined :
    ¬ RoomsClaimConfines ⟨"user-42", [], none, none, none⟩ (.array []) := by
  intro h
  obtain ⟨-, t, ht, -⟩ := h "design:abc" (by simp [allowsRoom, streamPrincipal,
    buildRelayClaims, withRooms, stringOrStrings])
  simp [Json.HasString] at ht

end MassRelay

import MassRelay.Lib.PercentEncoding
import MassRelay.Lib.Utf8
import MassRelay.Services.Gauges
import MassRelay.Services.OwnerFlags

/-!
# MassRelay.Server.Api

The HTTP API of the relay (`web/server/api.go`): its routes, and what their handlers say of rooms.

A request is answered between two calls of the service. `http.ServeMux` matches the segments of
its path, unescaped one by one, against those of a pattern. The rooms are for whoever knows their
ids, and only the admin is told which there are: of two relays with as many rooms and peers, and the
same room under the id that a request names, nobody else can tell one from the other
(`api_confined`). What the admin is told adds up (`adminStatus_consistent`).
-/

namespace MassRelay

/-! ### The routes -/

/-- A segment of a pattern. -/
inductive Segment
  | literal (name : String)
  | wildcard
  deriving DecidableEq

inductive Handler
  | health
  | getRoom
  /-- The WebSocket, behind the guard. -/
  | sync
  | resourceMetadata
  | adminListRooms
  | adminGetRoom
  | adminStatus
  deriving DecidableEq

structure Route where
  /-- The pattern has `GET` for its method, which is for `HEAD` too. -/
  get : Bool := true
  path : List Segment
  handler : Handler
  deriving DecidableEq

/-- What of the application the API reads. -/
structure ApiConfig where
  adminToken : String := ""
  /-- Whether `PRM` is set. -/
  resourceMetadata : Bool := false

open Segment in
def setupRoutes (app : ApiConfig) : List Route :=
  [{ path := [literal "health"], handler := .health },
    { path := [literal "api", literal "v1", literal "rooms", wildcard], handler := .getRoom },
    { get := false, path := [literal "ws", literal "v1", wildcard, literal "sync"],
      handler := .sync }] ++
  (if app.resourceMetadata then
    [{ path := [literal ".well-known", literal "oauth-protected-resource"],
       handler := .resourceMetadata }]
  else []) ++
  if app.adminToken ≠ "" then
    [{ path := [literal "admin", literal "rooms"], handler := .adminListRooms },
      { path := [literal "admin", literal "rooms", wildcard], handler := .adminGetRoom },
      { path := [literal "admin", literal "status"], handler := .adminStatus }]
  else []

def slash : UInt8 := 0x2F

/-- The segments of a path, which starts with a slash. -/
def pathSegments (path : List UInt8) : List (List UInt8) := (path.splitOn slash).drop 1

/-- A segment that `path.Clean` takes out, unless an empty one ends the path. -/
def isClean : List (List UInt8) → Bool
  | [] => true
  | [segment] => segment ≠ Utf8.encode ['.'] && segment ≠ Utf8.encode ['.', '.']
  | segment :: segments =>
    segment ≠ [] && segment ≠ Utf8.encode ['.'] && segment ≠ Utf8.encode ['.', '.'] &&
      isClean segments

/-- The segments that the wildcards of a pattern stand for. None of these is empty. -/
def matchPath : List Segment → List (List UInt8) → Option (List (List UInt8))
  | [], [] => some []
  | .literal name :: pattern, segment :: path =>
    if segment = Utf8.encode name.toList then matchPath pattern path else none
  | .wildcard :: pattern, segment :: path =>
    if segment = [] then none else (matchPath pattern path).map (segment :: ·)
  | _, _ => none

/-- A request, as the API reads it: whether it is a `GET`, its path as it was sent, and its
`Authorization`. -/
structure ApiRequest where
  get : Bool := true
  path : List UInt8
  authorization : String := ""

/-- The room id of a path, unless its bytes are no text, which is the id of no room. -/
def sessionIdOf (values : List (List UInt8)) : Option String :=
  values.head?.bind fun bytes =>
    let s := String.ofList (Utf8.decode bytes)
    if Utf8.encode s.toList = bytes then some s else none

/-! ### The handlers -/

structure RoomSummary where
  sessionId : String
  peerCount : Nat
  deriving DecidableEq

structure RoomDetails where
  summary : RoomSummary
  /-- The title, the encryption and the owner, if `GetRoom` finds the room. -/
  room : Option (String × Bool × String)
  deriving DecidableEq

/-- How long the relay is up, and how many goroutines it has. -/
structure Uptime where
  uptimeSeconds : Nat := 0
  goroutines : Nat := 0
  deriving DecidableEq

inductive Body
  | error (text : String)
  | health (uptime : Uptime) (rooms peers : Nat)
  | room (room : Room)
  | rooms (rooms : List RoomSummary)
  | status (uptime : Uptime) (rooms peers : Nat) (roomDetails : List RoomDetails)
  | resourceMetadata

inductive Outcome
  | respond (status : Nat) (body : Body)
  /-- To the clean path. -/
  | redirect
  /-- On to the guard. -/
  | upgrade (sessionId : Option String)

namespace CollabService

variable (s : CollabService)

/-- In any order. -/
def listRooms : List RoomSummary :=
  s.rooms.entries.map fun entry =>
    { sessionId := (s.roomAt entry.2).sessionId, peerCount := s.clientCount entry.2 }

end CollabService

namespace Api

variable (app : ApiConfig) (uptime : Uptime) (s : CollabService) (r : ApiRequest)

def handleHealth : Outcome :=
  .respond 200 (.health uptime s.roomAndPeerCount.1 s.roomAndPeerCount.2)

def handleGetRoom (sessionId : Option String) : Outcome :=
  match sessionId.bind s.getRoom with
  | none => .respond 404 (.error "\x7b\"error\":\"room not found\"\x7d")
  | some room => .respond 200 (.room room)

def handleListRooms : Outcome := .respond 200 (.rooms s.listRooms)

/-- The loop of `HandleAdminStatus` over the rooms. -/
def roomDetails : List RoomDetails :=
  s.listRooms.map fun summary =>
    { summary, room := (s.getRoom summary.sessionId).map fun room =>
        (room.title, room.encrypted, room.ownerClientId) }

def handleAdminStatus : Outcome :=
  .respond 200 (.status uptime s.roomAndPeerCount.1 s.roomAndPeerCount.2 (roomDetails s))

/-- `strings.TrimPrefix(auth, "Bearer ")`. -/
def bearerToken (auth : String) : String :=
  if "Bearer ".toList <+: auth.toList then String.ofList (auth.toList.drop 7) else auth

def requireAdmin (next : Outcome) : Outcome :=
  let token := bearerToken r.authorization
  if token = r.authorization ∨ token ≠ app.adminToken then
    .respond 401 (.error "\x7b\"error\":\"unauthorized\"\x7d")
  else next

def handle (values : List (List UInt8)) : Handler → Outcome
  | .health => handleHealth uptime s
  | .getRoom => handleGetRoom s (sessionIdOf values)
  | .sync => .upgrade (sessionIdOf values)
  | .resourceMetadata => .respond 200 .resourceMetadata
  | .adminListRooms => requireAdmin app r (handleListRooms s)
  | .adminGetRoom => requireAdmin app r (handleGetRoom s (sessionIdOf values))
  | .adminStatus => requireAdmin app r (handleAdminStatus uptime s)

/-- The routes whose path matches, with the segments of the wildcards. -/
def matching (segments : List (List UInt8)) : List (Route × List (List UInt8)) :=
  (setupRoutes app).filterMap fun route => (matchPath route.path segments).map (route, ·)

/-- The segments of a path, if each of them can be unescaped. -/
def unescaped (path : List UInt8) : Option (List (List UInt8)) :=
  (pathSegments path).mapM PercentEncoding.decode?

def serve : Outcome :=
  match unescaped r.path with
  | none => .respond 400 (.error "Bad Request")
  | some segments =>
    if isClean (pathSegments r.path) then
      match (matching app segments).find? fun m => r.get || !m.1.get with
      | some (route, values) => handle app uptime s r values route.handler
      | none =>
        if matching app segments = [] then .respond 404 (.error "404 page not found")
        else .respond 405 (.error "Method Not Allowed")
    else .redirect

variable {app uptime s r} {s' : CollabService} {next next' : Outcome}

/-! ### What is for the admin -/

theorem bearerToken_iff {auth token : String} :
    (bearerToken auth ≠ auth ∧ bearerToken auth = token) ↔ auth = "Bearer " ++ token := by
  unfold bearerToken
  split
  · rename_i hprefix
    obtain ⟨rest, hrest⟩ := hprefix
    have hauth : auth = "Bearer " ++ String.ofList rest := by
      refine String.toList_injective (hrest.symm.trans ?_)
      simp
    have hdrop : auth.toList.drop 7 = rest := by
      rw [← hrest]
      rfl
    have hne : String.ofList rest ≠ auth := fun heq => by
      have hlength := congrArg (·.toList.length) (heq.trans hauth)
      simp only [String.toList_append, String.toList_ofList, List.length_append] at hlength
      have hbearer : "Bearer ".toList.length = 7 := rfl
      omega
    rw [hdrop]
    constructor
    · rintro ⟨-, rfl⟩
      exact hauth
    · intro heq
      refine ⟨hne, String.toList_injective ?_⟩
      rw [heq, String.toList_append] at hrest
      rw [String.toList_ofList]
      exact List.append_cancel_left hrest
  · rename_i hprefix
    refine iff_of_false (fun h => h.1 rfl) fun heq => hprefix ?_
    rw [heq, String.toList_append]
    exact List.prefix_append _ _

theorem requireAdmin_of (h : r.authorization = "Bearer " ++ app.adminToken) :
    requireAdmin app r next = next := by
  obtain ⟨hne, htoken⟩ := bearerToken_iff.mpr h
  exact if_neg (not_or.mpr ⟨hne, not_not.mpr htoken⟩)

theorem requireAdmin_of_not (h : r.authorization ≠ "Bearer " ++ app.adminToken) :
    requireAdmin app r next = .respond 401 (.error "\x7b\"error\":\"unauthorized\"\x7d") := by
  refine if_pos (or_iff_not_imp_left.mpr fun hne htoken => h (bearerToken_iff.mp ⟨hne, htoken⟩))

/-! ### What is for all -/

/-- The room that a path names, in its fourth segment. -/
def named (path : List UInt8) : Option String :=
  (unescaped path).bind fun segments => sessionIdOf (segments.drop 3)

/-- A pattern of some names and a wildcard. -/
theorem values_of_matchPath {names : List String} {segments values : List (List UInt8)}
    (h : matchPath (names.map .literal ++ [.wildcard]) segments = some values) :
    values = segments.drop names.length := by
  induction names generalizing segments with
  | nil =>
    match segments with
    | [] => simp [matchPath] at h
    | [segment] =>
      obtain ⟨-, h⟩ := Option.ite_none_left_eq_some.mp h
      exact (Option.some.inj h).symm
    | segment :: _ :: _ => simp [matchPath] at h
  | cons name names ih =>
    cases segments with
    | nil => simp [matchPath] at h
    | cons segment segments =>
      obtain ⟨-, h⟩ := Option.ite_none_right_eq_some.mp h
      exact ih h

theorem path_of_getRoom : ∀ route ∈ setupRoutes app, route.handler = .getRoom →
    route.path = ["api", "v1", "rooms"].map .literal ++ [.wildcard] := by
  unfold setupRoutes
  split <;> split <;> simp

/-- The room that everyone may ask for is the one in the fourth segment. -/
theorem values_of_matching {segments values : List (List UInt8)} {route : Route}
    (h : (route, values) ∈ matching app segments) (hhandler : route.handler = .getRoom) :
    values = segments.drop 3 := by
  obtain ⟨route', hroute, hmatch⟩ := List.mem_filterMap.mp h
  obtain ⟨values', hvalues, heq⟩ := Option.map_eq_some_iff.mp hmatch
  obtain ⟨rfl, rfl⟩ := Prod.mk.inj heq
  rw [path_of_getRoom route' hroute hhandler] at hvalues
  exact values_of_matchPath hvalues

theorem handleGetRoom_congr {sessionId : Option String}
    (h : ∀ sid, sessionId = some sid → s.getRoom sid = s'.getRoom sid) :
    handleGetRoom s sessionId = handleGetRoom s' sessionId := by
  cases sessionId with
  | none => rfl
  | some sid => rw [handleGetRoom, handleGetRoom, Option.bind_some, Option.bind_some, h sid rfl]

/-- What a request without the admin's token is answered depends on no more of the rooms than how
many there are, how many peers they have together, and the one room under the id that its path
names. -/
theorem api_confined (app : ApiConfig) (uptime : Uptime) {r : ApiRequest} {s s' : CollabService}
    (hauth : r.authorization ≠ "Bearer " ++ app.adminToken)
    (hcounts : s.roomAndPeerCount = s'.roomAndPeerCount)
    (hroom : ∀ sid, named r.path = some sid → s.getRoom sid = s'.getRoom sid) :
    serve app uptime s r = serve app uptime s' r := by
  unfold serve
  cases hsegments : unescaped r.path with
  | none => rfl
  | some segments =>
    dsimp only
    split
    · split
      · rename_i route values hfind
        cases hhandler : route.handler with
        | health => rw [handle, handle, handleHealth, handleHealth, hcounts]
        | getRoom =>
          refine handleGetRoom_congr fun sid hsid => hroom sid ?_
          rw [values_of_matching (List.mem_of_find?_eq_some hfind) hhandler] at hsid
          rw [named, hsegments, Option.bind_some, hsid]
        | sync | resourceMetadata => rfl
        | adminListRooms | adminGetRoom | adminStatus =>
          rw [handle, handle, requireAdmin_of_not hauth, requireAdmin_of_not hauth]
      · rfl
    · rfl

/-- One peer in another room each, and a stranger asks for a third. -/
theorem api_confined_stranger :
    (serveAll .unary (newCollabService 10) [CollabService.joinS1 true ""]).listRooms ≠
      (serveAll .unary (newCollabService 10) [.handle (.direct 0) none
        { action := some (.join { sessionId := "s2" }) } 0]).listRooms ∧
    serve { adminToken := "secret" } {}
        (serveAll .unary (newCollabService 10) [CollabService.joinS1 true ""])
        { path := Utf8.encode "/api/v1/rooms/s3".toList } =
      serve { adminToken := "secret" } {}
        (serveAll .unary (newCollabService 10) [.handle (.direct 0) none
          { action := some (.join { sessionId := "s2" }) } 0])
        { path := Utf8.encode "/api/v1/rooms/s3".toList } := by
  have hnamed : named (Utf8.encode "/api/v1/rooms/s3".toList) = some "s3" := by decide +kernel
  refine ⟨by decide +kernel,
    api_confined { adminToken := "secret" } {} (by decide) (by decide +kernel)
    fun sid hsid => ?_⟩
  obtain rfl := Option.some.inj (hnamed.symm.trans hsid)
  exact (Option.not_isSome_iff_eq_none.mp (by decide +kernel)).trans
    (Option.not_isSome_iff_eq_none.mp (by decide +kernel)).symm

/-! ### What the admin is told -/

def statusPath : List UInt8 := Utf8.encode "/admin/status".toList

theorem serve_adminStatus (hget : r.get = true) (hpath : r.path = statusPath)
    (htoken : app.adminToken ≠ "") :
    serve app uptime s r = requireAdmin app r (handleAdminStatus uptime s) := by
  have hsegments : unescaped statusPath =
      some [Utf8.encode "admin".toList, Utf8.encode "status".toList] := by decide +kernel
  have hmatching : ∃ rest, matching app [Utf8.encode "admin".toList, Utf8.encode "status".toList] =
      ({ path := [.literal "admin", .literal "status"], handler := .adminStatus }, []) :: rest := by
    unfold matching setupRoutes
    rw [if_pos htoken]
    split
    · exact ⟨[], by decide +kernel⟩
    · exact ⟨[], by decide +kernel⟩
  obtain ⟨rest, hrest⟩ := hmatching
  have hclean : isClean (pathSegments statusPath) = true := by decide +kernel
  rw [serve, hpath, hsegments]
  dsimp only
  rw [if_pos hclean, hrest, List.find?_cons_of_pos (by simp [hget])]
  rfl

/-- What the admin is told adds up, in every state that requests one at a time lead to: each room
is there once, under an id by which it can be asked for, with as many peers as its room has and
with its title, encryption and owner; no other room can be asked for; and the numbers of rooms
and of peers are those of all of them. -/
theorem adminStatus_consistent (u : UuidSource) (maxPeers : Int) (reqs : List CollabService.Request)
    (app : ApiConfig) (uptime : Uptime) {r : ApiRequest} (hget : r.get = true)
    (hpath : r.path = statusPath) (htoken : app.adminToken ≠ "")
    (hauth : r.authorization = "Bearer " ++ app.adminToken) :
    ∃ details : List RoomDetails,
      serve app uptime (serveAll u (newCollabService maxPeers) reqs) r =
        .respond 200 (.status uptime details.length
          (details.map (·.summary.peerCount)).sum details) ∧
      (details.map (·.summary.sessionId)).Nodup ∧
      (∀ sid, ((serveAll u (newCollabService maxPeers) reqs).getRoom sid).isSome ↔
        sid ∈ details.map (·.summary.sessionId)) ∧
      ∀ d ∈ details, ∃ room,
        (serveAll u (newCollabService maxPeers) reqs).getRoom d.summary.sessionId = some room ∧
          room.peers.length = d.summary.peerCount ∧
          d.room = some (room.title, room.encrypted, room.ownerClientId) := by
  have hwf := (CollabService.RoomInv.serveAll (u := u) maxPeers reqs).wf
  generalize serveAll u (newCollabService maxPeers) reqs = s at hwf
  have hid : ∀ entry ∈ s.rooms.entries, (s.roomAt entry.2).sessionId = entry.1 :=
      fun entry hentry =>
    (hwf.registered (AList.mem_lookup_iff.mpr hentry)).1
  have hids : s.listRooms.map (·.sessionId) = s.rooms.keys := by
    rw [CollabService.listRooms, List.map_map]
    exact List.map_congr_left hid
  have hsummaries : (roomDetails s).map (·.summary) = s.listRooms := by
    rw [roomDetails, List.map_map]
    exact List.map_id _
  have hdetailIds : (roomDetails s).map (·.summary.sessionId) = s.rooms.keys := by
    rw [← hids, ← hsummaries, List.map_map]
    rfl
  have hcounts : (roomDetails s).map (·.summary.peerCount) =
      s.rooms.entries.map fun entry => s.clientCount entry.2 := by
    rw [roomDetails, CollabService.listRooms, List.map_map, List.map_map]
    rfl
  refine ⟨roomDetails s, ?_, ?_, fun sid => ?_, fun d hd => ?_⟩
  · rw [serve_adminStatus hget hpath htoken, requireAdmin_of hauth, hcounts, roomDetails,
      List.length_map, CollabService.listRooms, List.length_map]
    rfl
  · rw [hdetailIds]
    exact s.rooms.keys_nodup
  · rw [hdetailIds, CollabService.getRoom, Option.isSome_map, CollabService.getRoomByID,
      AList.lookup_isSome, AList.mem_keys]
  · obtain ⟨summary, hsummary, rfl⟩ := List.mem_map.mp hd
    obtain ⟨entry, hentry, rfl⟩ := List.mem_map.mp hsummary
    have hroom : s.getRoom (s.roomAt entry.2).sessionId = some (s.toProto entry.2) := by
      rw [CollabService.getRoom, hid entry hentry, CollabService.getRoomByID,
        AList.mem_lookup_iff.mpr hentry, Option.map_some]
    exact ⟨_, hroom, List.length_map _, by rw [hroom]; rfl⟩

theorem adminStatus_consistent_joined : ∃ details : List RoomDetails,
    serve { adminToken := "secret" } {}
      (serveAll .unary (newCollabService 10) [CollabService.joinS1 true ""])
        { path := statusPath, authorization := "Bearer secret" } =
      .respond 200 (.status {} details.length (details.map (·.summary.peerCount)).sum details) ∧
    "s1" ∈ details.map (·.summary.sessionId) := by
  obtain ⟨details, hserve, -, hids, -⟩ :=
    adminStatus_consistent .unary 10 [CollabService.joinS1 true ""]
    { adminToken := "secret" } {} (r := { path := statusPath, authorization := "Bearer secret" })
    rfl rfl (by decide) (by decide)
  exact ⟨details, hserve, (hids "s1").mp (by decide +kernel)⟩

end Api

end MassRelay

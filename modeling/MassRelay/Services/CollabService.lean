import MassRelay.Services.Room

/-!
# MassRelay.Services.CollabService

The registry of rooms and the handlers of `services/collab_service.go`, each
call executed without interruption.

The handlers are cut where the Go code takes and releases a lock, and each piece
is a definition of its own. `MassRelay.Services.Call` runs the same pieces one at
a time, so that other goroutines can come between them.

`s.uuid u` is the id the next `uuid.New` returns and `s.tick` the state after the
call; every event takes one for its `EventId`. Logging is left out.
-/

namespace MassRelay

/-- What `HandleAction` returns: an event for the caller, nothing, or an error. -/
inductive Answer
  | event (e : CollabEvent)
  | nothing
  | err (message : String)
  deriving DecidableEq

/-- `errorEvent`, with the id it takes. -/
def errorEvent (eventId code message : String) : CollabEvent :=
  { eventId, event := .error ⟨code, message⟩ }

namespace CollabService

/-! ### The registry -/

def getRoomByID (s : CollabService) (sessionId : String) : Option RoomRef :=
  s.rooms.lookup sessionId

def countRoomCreated (s : CollabService) : CollabService :=
  { s with metrics := { s.metrics with onRoomCreated := s.metrics.onRoomCreated + 1 } }

/-- `GetOrCreateRoom`, with the `OnRoomCreated` its caller runs for a new room. -/
def getOrCreateRoom (s : CollabService) (sessionId : String) : RoomRef × CollabService :=
  match s.rooms.lookup sessionId with
  | some r => (r, s)
  | none =>
    (s.nextRoom,
      { s with
        rooms := s.rooms.insert sessionId s.nextRoom
        roomAt := Function.update s.roomAt s.nextRoom { sessionId }
        nextRoom := s.nextRoom + 1 }.countRoomCreated)

/-- Unregisters an empty room, with the hints that point to it. -/
def removeRoom (s : CollabService) (sessionId : String) : CollabService :=
  match s.rooms.lookup sessionId with
  | none => s
  | some r =>
    if s.isEmpty r then
      { s with
        rooms := s.rooms.erase sessionId
        hintIndex := fun hint =>
          if s.hintIndex hint = some sessionId then none else s.hintIndex hint
        metrics := { s.metrics with onRoomRemoved := s.metrics.onRoomRemoved + 1 } }
    -- somebody has joined meanwhile
    else s

/-- The room that contains `clientId`. -/
def findRoomForClient (s : CollabService) (clientId : String) : Option RoomRef :=
  (s.rooms.entries.find? fun entry => clientId ∈ (s.roomAt entry.2).clients).map (·.2)

def getClient (s : CollabService) (sessionId clientId : String) : Option String :=
  (s.getRoomByID sessionId).bind fun r =>
    if clientId ∈ (s.roomAt r).clients then some clientId else none

/-- What `getOrCreateRoom` does: nothing to a registered session, else a new
room under a new pointer. -/
theorem getOrCreateRoom_cases (s : CollabService) (sid : String) :
    (∃ r, s.getRoomByID sid = some r ∧ s.getOrCreateRoom sid = (r, s)) ∨
    (s.getRoomByID sid = none ∧ (s.getOrCreateRoom sid).1 = s.nextRoom ∧
      (∀ sid', (s.getOrCreateRoom sid).2.getRoomByID sid' =
        if sid' = sid then some s.nextRoom else s.getRoomByID sid') ∧
      (s.getOrCreateRoom sid).2.roomAt =
        Function.update s.roomAt s.nextRoom { sessionId := sid } ∧
      (s.getOrCreateRoom sid).2.clientAt = s.clientAt ∧
      (s.getOrCreateRoom sid).2.nextRoom = s.nextRoom + 1 ∧
      (s.getOrCreateRoom sid).2.nextUuid = s.nextUuid) := by
  unfold getOrCreateRoom getRoomByID
  cases hlook : s.rooms.lookup sid with
  | some r => exact Or.inl ⟨r, rfl, rfl⟩
  | none =>
    refine Or.inr ⟨rfl, rfl, ?_, rfl, rfl, rfl, rfl⟩
    intro sid'
    by_cases hsid : sid' = sid
    · subst hsid
      simp [countRoomCreated]
    · simp [countRoomCreated, AList.lookup_insert_ne hsid, hsid]

theorem getOrCreateRoom_of_registered {s : CollabService} {sid : String} {r : RoomRef}
    (h : s.getRoomByID sid = some r) : s.getOrCreateRoom sid = (r, s) := by
  unfold getOrCreateRoom
  rw [show s.rooms.lookup sid = some r from h]

/-- What `getOrCreateRoom` returns is registered under the session id. -/
theorem getOrCreateRoom_registered (s : CollabService) (sid : String) :
    (s.getOrCreateRoom sid).2.getRoomByID sid = some (s.getOrCreateRoom sid).1 := by
  rcases getOrCreateRoom_cases s sid with ⟨r, hr, heq⟩ | ⟨-, hfst, hlook, -⟩
  · rw [heq, hr]
  · rw [hlook, hfst, if_pos rfl]

theorem findRoomForClient_eq_some {s : CollabService} {c : String} {r : RoomRef}
    (h : s.findRoomForClient c = some r) :
    (∃ sid, s.getRoomByID sid = some r) ∧ c ∈ (s.roomAt r).clients := by
  unfold findRoomForClient at h
  obtain ⟨entry, hfind, rfl⟩ := Option.map_eq_some_iff.mp h
  refine ⟨⟨entry.1, ?_⟩, by simpa using List.find?_some hfind⟩
  exact AList.mem_lookup_iff.mpr (List.mem_of_find?_eq_some hfind)

/-- A client of a registered room is found, in that room or another. -/
theorem findRoomForClient_isSome {s : CollabService} {sid c : String} {r : RoomRef}
    (hr : s.getRoomByID sid = some r) (hc : c ∈ (s.roomAt r).clients) :
    ∃ r', s.findRoomForClient c = some r' := by
  cases hfind : s.findRoomForClient c with
  | some r' => exact ⟨r', rfl⟩
  | none =>
    have hentry : (⟨sid, r⟩ : Sigma fun _ : String => RoomRef) ∈ s.rooms.entries :=
      AList.mem_lookup_iff.mp hr
    have hnone := List.find?_eq_none.mp (Option.map_eq_none_iff.mp hfind) _ hentry
    simp [hc] at hnone

/-! ### Joining -/

/-- The session a join without a session id is resolved to: the hint's, if it has
one, else a new id. -/
def resolveSession (u : UuidSource) (s : CollabService) (join : JoinRoom) :
    String × CollabService :=
  if join.sessionId ≠ "" then (join.sessionId, s)
  else
    let existing := if join.clientHint ≠ "" then (s.hintIndex join.clientHint).getD "" else ""
    if existing ≠ "" then (existing, s) else (s.uuid u, s.tick)

def indexHint (s : CollabService) (clientHint sessionId : String) : CollabService :=
  if clientHint ≠ "" then
    { s with hintIndex := Function.update s.hintIndex clientHint (some sessionId) }
  else s

/-- The participant limit. -/
def isFull (s : CollabService) (r : RoomRef) : Bool :=
  -- a limit of zero or less is none
  s.maxPeersPerRoom > 0 && (s.clientCount r : Int) ≥ s.maxPeersPerRoom

def roomFullMessage (s : CollabService) (r : RoomRef) : String :=
  "Room is full (" ++ toString (s.clientCount r) ++ "/" ++ toString s.maxPeersPerRoom ++ ")"

/-- The owner validation: an owner from a different browser. -/
def ownedElsewhere (s : CollabService) (r : RoomRef) (browserId : String) : Bool :=
  (s.roomAt r).ownerClientId ≠ "" && (s.roomAt r).ownerBrowserId ≠ browserId

/-- An owner declares its room encrypted. -/
def declareEncrypted (s : CollabService) (r : RoomRef) (join : JoinRoom) : CollabService :=
  if join.isOwner && join.encrypted then s.modifyRoom r fun room => { room with encrypted := true }
  else s

/-- The client a join makes, under the id `clientId`. -/
def newClient (g : Goroutine) (ctx : Ctx) (join : JoinRoom) (sessionId clientId : String)
    (existingPeers : List (String × PeerInfo)) : CollabClient :=
  { info :=
      { clientId
        username := if join.username = "" then "Anonymous" else join.username
        avatarUrl := join.avatarUrl
        clientType := join.clientType
        isActive := true
        isOwner := join.isOwner
        metadata := join.metadata
        identity := identity ctx }
    sessionId
    browserId := join.browserId
    sendCh := .make
    slow := false
    creator := g
    principal := ctx
    snapshot := existingPeers }

/-- `AddClient` of the new client, and the `OnPeerJoined` after it. -/
def addJoined (s : CollabService) (r : RoomRef) (client : CollabClient) : CollabService :=
  let s := s.addClient r client
  { s with metrics := { s.metrics with onPeerJoined := s.metrics.onPeerJoined + 1 } }

/-- Ownership, metadata and title of the room after a join. -/
def claimRoom (s : CollabService) (r : RoomRef) (clientId : String) (join : JoinRoom) :
    CollabService :=
  s.modifyRoom r fun room =>
    { room with
      ownerClientId := if join.isOwner then clientId else room.ownerClientId
      ownerBrowserId := if join.isOwner then join.browserId else room.ownerBrowserId
      metadata := if room.metadata = none then join.metadata else room.metadata
      title := if room.title = "" then join.title else room.title }

/-- It hands out the client's own `PeerInfo`, which is taken here as it is at this moment. -/
def peerJoinedEvent (s : CollabService) (eventId clientId : String) : CollabEvent :=
  { eventId, fromClientId := clientId, event := .peerJoined (s.clientAt clientId).info }

/-- The peers are those of `getPeerInfo`, as they were then. -/
def roomJoinedEvent (s : CollabService) (eventId : String) (r : RoomRef)
    (sessionId clientId : String) (roomEncrypted : Bool)
    (existingPeers : List (String × PeerInfo)) : CollabEvent :=
  { eventId
    event := .roomJoined
      { clientId
        room :=
          { sessionId
            peers := existingPeers
            ownerClientId := (s.roomAt r).ownerClientId
            metadata := (s.roomAt r).metadata
            encrypted := roomEncrypted
            title := (s.roomAt r).title }
        maxPeers := s.maxPeersPerRoom
        protocolVersion := s.protocolVersion } }

/-- The join is accepted: snapshot, `AddClient`, ownership, `PeerJoined`, answer. -/
def accept (u : UuidSource) (g : Goroutine) (ctx : Ctx) (join : JoinRoom) (sessionId : String)
    (r : RoomRef) (s : CollabService) : CollabService × Answer :=
  let roomEncrypted := (s.roomAt r).encrypted
  -- the snapshot is taken before `AddClient`, so the new client is not in it
  let existingPeers := s.getPeerInfo r
  let clientId := s.uuid u
  let s := s.tick.addJoined r (newClient g ctx join sessionId clientId existingPeers)
  let s := s.claimRoom r clientId join
  let e := s.peerJoinedEvent (s.uuid u) clientId
  let s := (s.tick.noteProgress clientId .announced).broadcastExcept g r e clientId
  (s.tick.noteProgress clientId .answered,
    .event (s.roomJoinedEvent (s.uuid u) r sessionId clientId roomEncrypted existingPeers))

/-- The checks a join makes on its room. -/
def enterRoom (u : UuidSource) (g : Goroutine) (ctx : Ctx) (join : JoinRoom) (sessionId : String)
    (r : RoomRef) (s : CollabService) : CollabService × Answer :=
  if s.isFull r then
    (s.tick, .event (errorEvent (s.uuid u) "ROOM_FULL" (s.roomFullMessage r)))
  else if join.isOwner && s.ownedElsewhere r join.browserId then
    (s, .err "room already has an owner from a different browser")
  else
    -- the declaration comes before the version check, and a join refused there leaves it behind
    let s := s.declareEncrypted r join
    if (s.roomAt r).encrypted && join.protocolVersion < 2 then
      (s.tick, .event (errorEvent (s.uuid u) "PROTOCOL_VERSION_TOO_OLD"
        "This room requires encryption (protocol version >= 2)"))
    else s.accept u g ctx join sessionId r

def handleJoin (u : UuidSource) (g : Goroutine) (ctx : Ctx) (join : JoinRoom)
    (s : CollabService) : CollabService × Answer :=
  -- the id of the request is checked, not the one that its hint stands for
  if !allowsRoom ctx join.sessionId then
    (s.tick, .event (errorEvent (s.uuid u) "ROOM_FORBIDDEN" "This token may not join this room"))
  else
    let (sessionId, s) := s.resolveSession u join
    let s := s.indexHint join.clientHint sessionId
    -- a rejoin must not bring back a room that the relay lost
    if join.mustExist && (s.getRoomByID sessionId).isNone then
      (s.tick, .event (errorEvent (s.uuid u) "ROOM_NOT_FOUND"
        ("No room " ++ sessionId ++ " on this relay")))
    else
      let (r, s) := s.getOrCreateRoom sessionId
      s.enterRoom u g ctx join sessionId r

/-! ### Leaving -/

def notFoundMessage (clientId : String) : String :=
  "client " ++ clientId ++ " not found in any room"

/-- What `handleLeave` reads of the leaving client before removing it: its owner
flag and its browser. -/
def leaverFlags (s : CollabService) (r : RoomRef) (clientId : String) : Bool × String :=
  if clientId ∈ (s.roomAt r).clients then
    ((s.clientAt clientId).info.isOwner, (s.clientAt clientId).browserId)
  else (false, "")

/-- `RemoveClient`, and the `OnPeerLeft` after it. -/
def removeLeft (s : CollabService) (r : RoomRef) (clientId : String) : CollabService :=
  let s := s.removeClient r clientId
  { s with metrics := { s.metrics with onPeerLeft := s.metrics.onPeerLeft + 1 } }

/-- A tab of the leaving owner's browser, if it named one. -/
def findSuccessor (s : CollabService) (r : RoomRef) (browserId clientId : String) (pick : Nat) :
    Option String :=
  if browserId ≠ "" then s.findByBrowserId r browserId clientId pick else none

/-- Ownership moves to the successor. -/
def transferOwner (s : CollabService) (r : RoomRef) (successor : String) : CollabService :=
  (s.modifyClient successor fun cl =>
    { cl with info := { cl.info with isOwner := true } }).modifyRoom
    r fun room => { room with ownerClientId := (s.clientAt successor).info.clientId }

def ownerChangedEvent (s : CollabService) (eventId clientId successor : String) : CollabEvent :=
  { eventId, fromClientId := clientId, event := .ownerChanged (s.clientAt successor).info.clientId }

def ownerDisconnectedEvent (eventId clientId : String) : CollabEvent :=
  { eventId, fromClientId := clientId, event := .sessionEnded "owner_disconnected" }

/-- The `PeerLeft` the remaining clients get. -/
def peerLeftEvent (eventId clientId reason : String) (peerCount : Nat) : CollabEvent :=
  { eventId, fromClientId := clientId, event := .peerLeft ⟨clientId, reason, peerCount⟩ }

/-- The `PeerLeft` that answers the leave. -/
def leftAnswer (eventId clientId : String) (peerCount : Nat) : CollabEvent :=
  { eventId, event := .peerLeft ⟨clientId, "", peerCount⟩ }

/-- No same-browser successor: the session ends for everyone. -/
def endRoom (u : UuidSource) (g : Goroutine) (clientId : String) (r : RoomRef)
    (s : CollabService) : CollabService × Answer :=
  let s := s.tick.broadcastToAll g r (ownerDisconnectedEvent (s.uuid u) clientId)
  let s := s.closeAllClients r
  let s := s.removeRoom (s.roomAt r).sessionId
  (s.tick, .event (leftAnswer (s.uuid u) clientId 0))

/-- The remaining clients are told, and an empty room goes. -/
def announceLeft (u : UuidSource) (g : Goroutine) (clientId reason : String) (r : RoomRef)
    (remainingCount : Nat) (s : CollabService) : CollabService × Answer :=
  let s := s.tick.broadcastToAll g r (peerLeftEvent (s.uuid u) clientId reason remainingCount)
  let s := if remainingCount = 0 then s.removeRoom (s.roomAt r).sessionId else s
  (s.tick, .event (leftAnswer (s.uuid u) clientId remainingCount))

/-- `pick` stands for the order in which `FindByBrowserId` meets the clients. -/
def handleLeave (u : UuidSource) (g : Goroutine) (clientId : String) (leave : LeaveRoom)
    (pick : Nat) (s : CollabService) : CollabService × Answer :=
  match s.findRoomForClient clientId with
  | none => (s, .err (notFoundMessage clientId))
  | some r =>
    let (isOwner, browserId) := s.leaverFlags r clientId
    let s := s.removeLeft r clientId
    let remainingCount := s.clientCount r
    if isOwner && remainingCount > 0 then
      match s.findSuccessor r browserId clientId pick with
      | none => s.endRoom u g clientId r
      | some successor =>
        let s := s.transferOwner r successor
        let s := s.tick.broadcastToAll g r (s.ownerChangedEvent (s.uuid u) clientId successor)
        s.announceLeft u g clientId leave.reason r remainingCount
    else s.announceLeft u g clientId leave.reason r remainingCount

/-! ### Relaying -/

/-- The event `handleBroadcast` relays an action as. -/
def relayed : Action → Option Event
  | .sceneUpdate su => some (.sceneUpdate su)
  | .cursorUpdate cu => some (.cursorUpdate cu)
  | .textUpdate tu => some (.textUpdate tu)
  | .sceneInitRequest => some .sceneInitRequest
  | .sceneInitResponse sr => some (.sceneInitResponse sr)
  | .credentialsChanged cc => some (.credentialsChanged cc)
  | .titleChanged tc => some (.titleChanged tc)
  | .appMessage am => some (.appMessage am)
  | .join _ | .leave _ | .presence _ => none

def handlePresence (u : UuidSource) (g : Goroutine) (clientId : String)
    (presence : PresenceUpdate) (s : CollabService) : CollabService × Answer :=
  match s.findRoomForClient clientId with
  | none => (s, .err (notFoundMessage clientId))
  | some r =>
    (s.tick.broadcastExcept g r
      { eventId := s.uuid u, fromClientId := clientId, event := .presence presence } clientId,
      .nothing)

/-- The room state a relayed action changes. -/
def noteRelayed (s : CollabService) (r : RoomRef) : Action → CollabService
  | .credentialsChanged cc =>
    -- whoever in the room says so; a new password leaves the flag as it is
    if cc.reason = "password_removed" then
      s.modifyRoom r fun room => { room with encrypted := false }
    else s
  | .titleChanged tc => s.modifyRoom r fun room => { room with title := tc.title }
  | _ => s

def countRelay (s : CollabService) : CollabService :=
  { s with metrics := { s.metrics with onMessageRelay := s.metrics.onMessageRelay + 1 } }

/-- The copy of an addressed message that one receiver gets. -/
def addressedEvent (eventId fromClientId : String) (msg : AppMessage) (receiver : String) :
    CollabEvent :=
  { eventId, fromClientId, event := .appMessage { msg with toClientIds := [receiver] } }

def deliverAddressed (g : Goroutine) (s : CollabService) (r : RoomRef)
    (eventId fromClientId : String) (msg : AppMessage) : CollabService × List String :=
  s.sendEach g r msg.toClientIds (addressedEvent eventId fromClientId msg)

/-- The ids a `PEER_NOT_FOUND` names. -/
def missingText (missing : List String) : String := ", ".intercalate missing

/-- The message of an action that names its receivers. -/
def addressed? : Action → Option AppMessage
  | .appMessage msg => if msg.toClientIds = [] then none else some msg
  | _ => none

def handleBroadcast (u : UuidSource) (g : Goroutine) (clientId : String) (action : Action)
    (s : CollabService) : CollabService × Answer :=
  match s.findRoomForClient clientId with
  | none => (s, .err (notFoundMessage clientId))
  | some r =>
    match relayed action with
    | none => (s.tick, .err "unsupported broadcast action type")
    | some event =>
      let eventId := s.uuid u
      let s := s.tick.noteRelayed r action
      match addressed? action with
      | none =>
        ((s.broadcastExcept g r { eventId, fromClientId := clientId, event } clientId).countRelay,
          .nothing)
      | some msg =>
        let (s, missing) := s.deliverAddressed g r eventId clientId msg
        let s := s.countRelay
        if missing = [] then (s, .nothing)
        -- the others got the message all the same
        else (s.tick, .event (errorEvent (s.uuid u) "PEER_NOT_FOUND"
          ("Not in this room: " ++ missingText missing)))

/-- `DeliverAppMessage`, for an embedding server without a socket; `some` is the
text of the error it returns. -/
def deliverAppMessage (u : UuidSource) (g : Goroutine) (sessionId fromClientId : String)
    (msg : AppMessage) (s : CollabService) : CollabService × Option String :=
  match s.getRoomByID sessionId with
  | none => (s, some "room not found")
  | some r =>
    let eventId := s.uuid u
    let s := s.tick
    if msg.toClientIds = [] then
      ((s.broadcastExcept g r { eventId, fromClientId, event := .appMessage msg }
        fromClientId).countRelay, none)
    else
      let (s, missing) := s.deliverAddressed g r eventId fromClientId msg
      (s.countRelay,
        if missing = [] then none else some ("peer not found in room: " ++ missingText missing))

/-- `HandleAction`, made by goroutine `g` with context `ctx`. -/
def handleAction (u : UuidSource) (g : Goroutine) (ctx : Ctx) (a : CollabAction) (pick : Nat)
    (s : CollabService) : CollabService × Answer :=
  match a.action with
  | some (.join join) => s.handleJoin u g ctx join
  | some (.leave leave) => s.handleLeave u g a.clientId leave pick
  | some (.presence presence) => s.handlePresence u g a.clientId presence
  | some action => s.handleBroadcast u g a.clientId action
  | none => (s, .err "unknown or empty action type")

/-! ### Calls executed one at a time -/

/-- Whoever drains the client's queue takes its next entry, if there is one. -/
def receive (s : CollabService) (c : String) : CollabService :=
  match s.take? c with
  | none => s
  | some (_, s) => s

/-- What can happen to a service whose calls do not overlap. -/
inductive Request
  | handle (g : Goroutine) (ctx : Ctx) (a : CollabAction) (pick : Nat)
  | deliverAppMessage (g : Goroutine) (sessionId fromClientId : String) (msg : AppMessage)
  | receive (c : String)

/-- The state after one request. -/
def serve (u : UuidSource) (s : CollabService) : Request → CollabService
  | .handle g ctx a pick => (s.handleAction u g ctx a pick).1
  | .deliverAppMessage g sessionId fromClientId msg =>
    (s.deliverAppMessage u g sessionId fromClientId msg).1
  | .receive c => s.receive c

end CollabService

/-- `NewCollabService`, with the participant limit its owner configured. -/
def newCollabService (maxPeersPerRoom : Int) : CollabService := { maxPeersPerRoom }

/-- The service after a run of requests, one at a time. -/
def serveAll (u : UuidSource) (s : CollabService) (reqs : List CollabService.Request) :
    CollabService :=
  reqs.foldl (CollabService.serve u) s

end MassRelay

import Mathlib.Data.List.Permutation
import MassRelay.Lib.Prog
import MassRelay.Services.CollabService

/-!
# MassRelay.Services.Call

The handlers of `services/collab_service.go` and `services/room.go` as programs
that other goroutines can come between.

A `ServiceOp` is what a handler does in one step: a section under a mutex, or an
access without one. `ServiceOp.exec` is what it does to the service; it answers
`none` while the goroutine is blocked. A `sync.RWMutex` held for writing covers a
single step, so only the readers of a room's `mu` that keep it across steps have
to be on record (`CollabRoom.readers`): the delivery loops of a broadcast. The
programs below then read like the Go functions they are named after.

Running one of them without interruption is the handler of
`MassRelay.Services.CollabService` of the same name (`MassRelay.Services.Alone`).
-/

namespace MassRelay

/-- Whom a broadcast ranges over: everyone, everyone but one client, the same for
the `PeerJoined` of that client, or the listed clients. -/
inductive Range
  | all
  | except (clientId : String)
  | announce (clientId : String)
  | each (clientIds : List String)

/-- The order in which a Go map is ranged over is any; `n` is which. -/
def rangeOrder (n : Nat) (l : List String) : List String := l.permutations'[n]?.getD l

theorem rangeOrder_perm (n : Nat) (l : List String) : (rangeOrder n l).Perm l := by
  unfold rangeOrder
  cases h : l.permutations'[n]? with
  | none => exact .refl l
  | some l' => exact List.mem_permutations'.mp (List.mem_of_getElem? h)

/-- Past the last order the range is the list itself. -/
theorem rangeOrder_length (l : List String) : rangeOrder l.permutations'.length l = l := by
  rw [rangeOrder, List.getElem?_eq_none le_rfl]
  rfl

/-- One step of a handler. -/
inductive ServiceOp
  | uuid
  | hint (clientHint : String)
  | indexHint (clientHint sessionId : String)
  | getRoomByID (sessionId : String)
  | getOrCreateRoom (sessionId : String)
  | isFull (r : RoomRef)
  | roomFullMessage (r : RoomRef)
  | ownedElsewhere (r : RoomRef) (browserId : String)
  | setEncrypted (r : RoomRef) (encrypted : Bool)
  | isEncrypted (r : RoomRef)
  | getPeerInfo (r : RoomRef)
  | addClient (r : RoomRef) (ctx : Ctx) (join : JoinRoom) (sessionId : String)
      (existingPeers : List (String × PeerInfo))
  | claimRoom (r : RoomRef) (clientId : String) (join : JoinRoom)
  | peerJoinedEvent (eventId clientId : String)
  | roomJoinedEvent (eventId : String) (r : RoomRef) (sessionId clientId : String)
      (roomEncrypted : Bool) (existingPeers : List (String × PeerInfo))
  | findRoomForClient (clientId : String)
  | hasClient (r : RoomRef) (clientId : String)
  | leaverFlags (r : RoomRef) (clientId : String)
  | removeClient (r : RoomRef) (clientId : String)
  | clientCount (r : RoomRef)
  | findByBrowserId (r : RoomRef) (browserId excludeClientId : String)
  | transferOwner (r : RoomRef) (successor : String)
  | ownerChangedEvent (eventId clientId successor : String)
  | closeAllClients (r : RoomRef)
  | removeRoom (r : RoomRef)
  | setTitle (r : RoomRef) (title : String)
  | countRelay
  | rlock (r : RoomRef) (range : Range)
  | runlock (r : RoomRef)
  | beginDeliver (c : String) (e : CollabEvent)
  | put (c : String) (e : CollabEvent) (call : Nat)
  | markSlow (c : String) (call : Nat)
  /-- `HandleAction` returns; only the history changes. -/
  | handled

namespace ServiceOp

/-- What a step answers. -/
@[reducible] def Res : ServiceOp → Type
  | .uuid | .roomFullMessage _ | .addClient .. => String
  | .hint _ | .findByBrowserId .. => Option String
  | .getRoomByID _ | .findRoomForClient _ => Option RoomRef
  | .getOrCreateRoom _ => RoomRef
  | .isFull _ | .ownedElsewhere .. | .isEncrypted _ | .hasClient .. | .put .. => Bool
  | .getPeerInfo _ => List (String × PeerInfo)
  | .peerJoinedEvent .. | .roomJoinedEvent .. | .ownerChangedEvent .. => CollabEvent
  | .leaverFlags .. => Bool × String
  | .clientCount _ => Nat
  | .rlock .. => List String × List String
  | .beginDeliver .. => Option Nat
  | .indexHint .. | .setEncrypted .. | .claimRoom .. | .removeClient .. | .transferOwner ..
  | .closeAllClients _ | .removeRoom _ | .setTitle .. | .countRelay | .runlock _ | .markSlow ..
  | .handled => Unit

end ServiceOp

namespace CollabService

/-- A section under `room.mu.Lock()`, blocked while someone reads across steps. -/
def lock {α : Type} (s : CollabService) (r : RoomRef) (result : CollabService × α) :
    Option (CollabService × α) :=
  if (s.roomAt r).readers = ∅ then some result else none

/-- Whom a range delivers to, and which ids it reports missing. -/
def rangeTargets (s : CollabService) (r : RoomRef) (n : Nat) : Range → List String × List String
  | .all => (rangeOrder n (s.roomAt r).clients, [])
  | .except c | .announce c => (rangeOrder n (s.exceptTargets r c), [])
  | .each clientIds => s.eachLoop r clientIds []

/-- `room.mu.RLock()` of a broadcast. -/
def rlock (s : CollabService) (g : Goroutine) (r : RoomRef) (range : Range) : CollabService :=
  let s := s.modifyRoom r fun room => { room with readers := insert g room.readers }
  match range with
  | .announce c => s.noteProgress c .announced
  | _ => s

def runlock (s : CollabService) (g : Goroutine) (r : RoomRef) : CollabService :=
  s.modifyRoom r fun room => { room with readers := room.readers.erase g }

/-- Goroutine `g` carries out an action of a client in a room, or none. -/
def noteActing (s : CollabService) (g : Goroutine) (action : Option (String × RoomRef)) :
    CollabService :=
  { s with acting := Function.update s.acting g action }

end CollabService

/-- What a step of goroutine `g` does to a running process; `n` resolves the order of
a Go map. -/
def ServiceOp.apply (u : UuidSource) (g : Goroutine) (n : Nat) :
    (o : ServiceOp) → CollabService → Option (CollabService × o.Res)
  | .uuid, s => some (s.tick, s.uuid u)
  | .hint clientHint, s => some (s, s.hintIndex clientHint)
  | .indexHint clientHint sessionId, s =>
    some ({ s with hintIndex := Function.update s.hintIndex clientHint (some sessionId) }, ())
  | .getRoomByID sessionId, s => some (s, s.getRoomByID sessionId)
  | .getOrCreateRoom sessionId, s =>
    some ((s.getOrCreateRoom sessionId).2, (s.getOrCreateRoom sessionId).1)
  | .isFull r, s => some (s, s.isFull r)
  | .roomFullMessage r, s => some (s, s.roomFullMessage r)
  | .ownedElsewhere r browserId, s => s.lock r (s, s.ownedElsewhere r browserId)
  | .setEncrypted r encrypted, s =>
    s.lock r (s.modifyRoom r fun room => { room with encrypted }, ())
  | .isEncrypted r, s => some (s, (s.roomAt r).encrypted)
  | .getPeerInfo r, s => some (s, s.getPeerInfo r)
  | .addClient r ctx join sessionId existingPeers, s =>
    s.lock r (s.tick.addJoined r (CollabService.newClient g ctx join sessionId (s.uuid u)
      existingPeers), s.uuid u)
  | .claimRoom r clientId join, s => s.lock r (s.claimRoom r clientId join, ())
  | .peerJoinedEvent eventId clientId, s => some (s, s.peerJoinedEvent eventId clientId)
  | .roomJoinedEvent eventId r sessionId clientId roomEncrypted existingPeers, s =>
    some (s.noteProgress clientId .answered,
      s.roomJoinedEvent eventId r sessionId clientId roomEncrypted existingPeers)
  | .findRoomForClient clientId, s =>
    some (s.noteActing g ((s.findRoomForClient clientId).map fun r => (clientId, r)),
      s.findRoomForClient clientId)
  | .hasClient r clientId, s => some (s, decide (clientId ∈ (s.roomAt r).clients))
  | .leaverFlags r clientId, s => some (s, s.leaverFlags r clientId)
  | .removeClient r clientId, s => s.lock r (s.removeLeft r clientId, ())
  | .clientCount r, s => some (s, s.clientCount r)
  | .findByBrowserId r browserId excludeClientId, s =>
    some (s, s.findByBrowserId r browserId excludeClientId n)
  | .transferOwner r successor, s => s.lock r (s.transferOwner r successor, ())
  | .ownerChangedEvent eventId clientId successor, s =>
    some (s, s.ownerChangedEvent eventId clientId successor)
  | .closeAllClients r, s => s.lock r (s.closeAllClients r, ())
  | .removeRoom r, s => some (s.removeRoom (s.roomAt r).sessionId, ())
  | .setTitle r title, s => s.lock r (s.modifyRoom r fun room => { room with title }, ())
  | .countRelay, s => some (s.countRelay, ())
  | .rlock r range, s => some (s.rlock g r range, s.rangeTargets r n range)
  | .runlock r, s => some (s.runlock g r, ())
  | .beginDeliver c e, s => some ((s.beginDeliver g c e).1, (s.beginDeliver g c e).2)
  | .put c e call, s => some ((s.put? g c e call).getD s, (s.put? g c e call).isSome)
  | .markSlow c call, s => some (s.markSlow c call, ())
  | .handled, s => some (s.noteActing g none, ())

/-- A step of goroutine `g`; after a panic there is none. -/
def ServiceOp.exec (u : UuidSource) (g : Goroutine) (n : Nat) (o : ServiceOp)
    (s : CollabService) : Option (CollabService × o.Res) :=
  if s.panicked then none else o.apply u g n s

/-! ### The handlers -/

/-- A program over the steps of the service. -/
abbrev Call := Prog ServiceOp ServiceOp.Res

namespace Call

abbrev perform (o : ServiceOp) : Call o.Res := Prog.perform o

def uuid : Call String := perform .uuid

/-- `errorEvent`, as an answer. -/
def error (code message : String) : Call Answer := do
  let eventId ← uuid
  return .event (errorEvent eventId code message)

def deliver (c : String) (e : CollabEvent) : Call Unit := do
  match ← perform (.beginDeliver c e) with
  | none => return
  | some call =>
    let queued ← perform (.put c e call)
    if queued then return else perform (.markSlow c call)

def deliverEach : List (String × CollabEvent) → Call Unit
  | [] => return
  | (c, e) :: targets => do
    deliver c e
    deliverEach targets

/-- `BroadcastToAll`, `BroadcastExcept` and `SendEach`: `build` is the event each
client gets, and the answer the ids that are not in the room. -/
def broadcast (r : RoomRef) (range : Range) (build : String → CollabEvent) :
    Call (List String) := do
  let (targets, missing) ← perform (.rlock r range)
  deliverEach (targets.map fun c => (c, build c))
  perform (.runlock r)
  return missing

/-- The session a join without a session id is resolved to. -/
def resolveSession (join : JoinRoom) : Call String :=
  if join.sessionId ≠ "" then return join.sessionId
  else if join.clientHint ≠ "" then do
    let existing ← perform (.hint join.clientHint)
    if existing.getD "" ≠ "" then return existing.getD "" else uuid
  else uuid

/-- The join is accepted: snapshot, `AddClient`, ownership, `PeerJoined`, answer. -/
def accept (ctx : Ctx) (join : JoinRoom) (sessionId : String) (r : RoomRef)
    (roomEncrypted : Bool) : Call Answer := do
  let existingPeers ← perform (.getPeerInfo r)
  -- two joins may both get here before either adds its client; neither snapshot then has the other
  let clientId ← perform (.addClient r ctx join sessionId existingPeers)
  perform (.claimRoom r clientId join)
  let eventId ← uuid
  let e ← perform (.peerJoinedEvent eventId clientId)
  let _ ← broadcast r (.announce clientId) fun _ => e
  let eventId ← uuid
  let answer ← perform (.roomJoinedEvent eventId r sessionId clientId roomEncrypted existingPeers)
  return .event answer

/-- The encryption checks, between the owner validation and the snapshot. -/
def checkEncryption (ctx : Ctx) (join : JoinRoom) (sessionId : String) (r : RoomRef) :
    Call Answer := do
  Prog.onlyIf (join.isOwner && join.encrypted) (perform (.setEncrypted r true))
  let roomEncrypted ← perform (.isEncrypted r)
  if roomEncrypted && join.protocolVersion < 2 then
    error "PROTOCOL_VERSION_TOO_OLD" "This room requires encryption (protocol version >= 2)"
  else accept ctx join sessionId r roomEncrypted

/-- The checks a join makes on its room. -/
def enterRoom (ctx : Ctx) (join : JoinRoom) (sessionId : String) (r : RoomRef) :
    Call Answer := do
  -- nothing holds the room from here to `addClient`, so several joins may get past the limit
  let full ← perform (.isFull r)
  if full then do
    let message ← perform (.roomFullMessage r)
    error "ROOM_FULL" message
  else if join.isOwner then do
    let elsewhere ← perform (.ownedElsewhere r join.browserId)
    if elsewhere then return .err "room already has an owner from a different browser"
    else checkEncryption ctx join sessionId r
  else checkEncryption ctx join sessionId r

/-- Whether a join that needs its room to exist finds none. -/
def lacksRoom (join : JoinRoom) (sessionId : String) : Call Bool :=
  if join.mustExist then do
    let found ← perform (.getRoomByID sessionId)
    return found.isNone
  else return false

def handleJoin (ctx : Ctx) (join : JoinRoom) : Call Answer :=
  if !allowsRoom ctx join.sessionId then
    error "ROOM_FORBIDDEN" "This token may not join this room"
  else do
    let sessionId ← resolveSession join
    Prog.onlyIf (join.clientHint ≠ "") (perform (.indexHint join.clientHint sessionId))
    let lost ← lacksRoom join sessionId
    if lost then error "ROOM_NOT_FOUND" ("No room " ++ sessionId ++ " on this relay")
    else do
      let r ← perform (.getOrCreateRoom sessionId)
      enterRoom ctx join sessionId r

/-- No same-browser successor: the session ends for everyone. -/
def endRoom (clientId : String) (r : RoomRef) : Call Answer := do
  let eventId ← uuid
  let _ ← broadcast r .all fun _ => CollabService.ownerDisconnectedEvent eventId clientId
  -- who joined after the broadcast is closed without an event
  perform (.closeAllClients r)
  perform (.removeRoom r)
  let eventId ← uuid
  return .event (CollabService.leftAnswer eventId clientId 0)

/-- The remaining clients are told, and an empty room goes. -/
def announceLeft (clientId reason : String) (r : RoomRef) (remainingCount : Nat) :
    Call Answer := do
  let eventId ← uuid
  let _ ← broadcast r .all fun _ =>
    CollabService.peerLeftEvent eventId clientId reason remainingCount
  Prog.onlyIf (remainingCount = 0) (perform (.removeRoom r))
  let eventId ← uuid
  return .event (CollabService.leftAnswer eventId clientId remainingCount)

/-- A tab of the leaving owner's browser, if it named one. -/
def findSuccessor (r : RoomRef) (browserId clientId : String) : Call (Option String) :=
  if browserId ≠ "" then perform (.findByBrowserId r browserId clientId) else return none

/-- An owner left others behind: a successor takes over, or the session ends. -/
def leaveOwner (clientId reason : String) (r : RoomRef) (browserId : String)
    (remainingCount : Nat) : Call Answer := do
  match ← findSuccessor r browserId clientId with
  | none => endRoom clientId r
  | some successor =>
    perform (.transferOwner r successor)
    let eventId ← uuid
    let e ← perform (.ownerChangedEvent eventId clientId successor)
    let _ ← broadcast r .all fun _ => e
    announceLeft clientId reason r remainingCount

def handleLeave (clientId : String) (leave : LeaveRoom) : Call Answer := do
  match ← perform (.findRoomForClient clientId) with
  | none => return .err (CollabService.notFoundMessage clientId)
  | some r =>
    let (isOwner, browserId) ← perform (.leaverFlags r clientId)
    -- of several leaves for one client, each may come this far
    perform (.removeClient r clientId)
    let remainingCount ← perform (.clientCount r)
    if isOwner && remainingCount > 0 then
      leaveOwner clientId leave.reason r browserId remainingCount
    else announceLeft clientId leave.reason r remainingCount

def handlePresence (clientId : String) (presence : PresenceUpdate) : Call Answer := do
  match ← perform (.findRoomForClient clientId) with
  | none => return .err (CollabService.notFoundMessage clientId)
  | some r =>
    let eventId ← uuid
    let _ ← broadcast r (.except clientId) fun _ =>
      { eventId, fromClientId := clientId, event := .presence presence }
    return .nothing

/-- The room state a relayed action changes. -/
def noteRelayed (r : RoomRef) : Action → Call Unit
  | .credentialsChanged cc =>
    if cc.reason = "password_removed" then perform (.setEncrypted r false) else return
  | .titleChanged tc => perform (.setTitle r tc.title)
  | _ => return

/-- The event of an action goes to its receivers, or to everyone else in the room. -/
def relay (clientId : String) (r : RoomRef) (action : Action) (eventId : String)
    (event : Event) : Call Answer :=
  match CollabService.addressed? action with
  | none => do
    let _ ← broadcast r (.except clientId) fun _ => { eventId, fromClientId := clientId, event }
    perform .countRelay
    return .nothing
  | some msg => do
    let missing ← broadcast r (.each msg.toClientIds)
      (CollabService.addressedEvent eventId clientId msg)
    perform .countRelay
    if missing = [] then return .nothing
    else error "PEER_NOT_FOUND" ("Not in this room: " ++ CollabService.missingText missing)

def handleBroadcast (clientId : String) (action : Action) : Call Answer := do
  match ← perform (.findRoomForClient clientId) with
  | none => return .err (CollabService.notFoundMessage clientId)
  | some r =>
    let eventId ← uuid
    match CollabService.relayed action with
    | none => return .err "unsupported broadcast action type"
    | some event =>
      noteRelayed r action
      relay clientId r action eventId event

/-- The handler `HandleAction` routes an action to. -/
def route (ctx : Ctx) (a : CollabAction) : Call Answer :=
  match a.action with
  | some (.join join) => handleJoin ctx join
  | some (.leave leave) => handleLeave a.clientId leave
  | some (.presence presence) => handlePresence a.clientId presence
  | some action => handleBroadcast a.clientId action
  | none => return .err "unknown or empty action type"

def handleAction (ctx : Ctx) (a : CollabAction) : Call Answer := do
  let answer ← route ctx a
  perform .handled
  return answer

/-- `GetClient`, for its answer whether there is one. -/
def getClient (sessionId clientId : String) : Call Bool := do
  match ← perform (.getRoomByID sessionId) with
  | none => return false
  | some r => perform (.hasClient r clientId)

/-- `DeliverAppMessage`; `some` is the text of the error it returns. -/
def deliverAppMessage (sessionId fromClientId : String) (msg : AppMessage) :
    Call (Option String) := do
  match ← perform (.getRoomByID sessionId) with
  | none => return some "room not found"
  | some r =>
    let eventId ← uuid
    if msg.toClientIds = [] then do
      let _ ← broadcast r (.except fromClientId) fun _ =>
        { eventId, fromClientId, event := .appMessage msg }
      perform .countRelay
      return none
    else do
      let missing ← broadcast r (.each msg.toClientIds)
        (CollabService.addressedEvent eventId fromClientId msg)
      perform .countRelay
      return if missing = [] then none
        else some ("peer not found in room: " ++ CollabService.missingText missing)

end Call

end MassRelay

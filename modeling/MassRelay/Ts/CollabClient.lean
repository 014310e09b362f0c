import Mathlib.Algebra.Group.Nat.Defs
import Mathlib.Data.List.AList
import MassRelay.Models

/-!
# MassRelay.Ts.CollabClient

The browser client of `ts/src/CollabClient.ts`: what it does with an event of the relay.

The class calls back into the page that it runs in, and a callback may do anything to the
page, the client included. So a method is a function on the state of a `Page`, of which the
client is a part: its assignments are updates of that part, and a callback is `call`. A
`Listener` is a page whose callbacks leave the client alone.

What the client asks of the browser is on record in `asked`. A socket, a timer, a fetch or a
call of `getToken` is known by the position of its command there; `tasks` are those that have
yet to run or to settle, and `sockets` the sockets that nobody has closed. Events are what
`fromJson` makes of the relay's messages, which always carry the `peer` of a `PeerJoined` and
the `room` of a `RoomJoined`; a JavaScript map is a list of its entries without the order.
-/

namespace MassRelay.Ts

/-- `PeerInfoJson`; the client's own entry has no owner flag and no identity. -/
structure PeerInfoJson where
  clientId : String
  username : String
  avatarUrl : String
  clientType : String
  isActive : Bool
  isOwner : Option Bool := none
  metadata : Metadata
  identity : Option PeerIdentity := none
  deriving DecidableEq

def peerToJson (peer : PeerInfo) : PeerInfoJson where
  clientId := peer.clientId
  username := peer.username
  avatarUrl := peer.avatarUrl
  clientType := peer.clientType
  isActive := peer.isActive
  isOwner := some peer.isOwner
  metadata := peer.metadata
  identity := peer.identity

/-- The options that are values; the callbacks are `Page.call`. -/
structure CollabClientOptions where
  reconnect : Option Bool := none
  retryDelayMs : Option Nat := none
  token : Option String := none
  /-- Whether the page set `getToken`. -/
  getToken : Bool := false

/-- The callbacks of `CollabClientOptions`, with their arguments. -/
inductive Callback
  | onEvent (event : CollabEvent)
  | onPeerJoined (peer : PeerInfoJson)
  | onPeerLeft (clientId : String)
  | onConnect (clientId : String)
  | onDisconnect
  | onSessionEnded (reason : String)
  | onOwnerChanged (newOwnerClientId : String)
  | onCredentialsChanged (reason : String)
  | onTitleChanged (title : String)
  | onAppMessage (kind : String) (payload : List UInt8) (fromClientId toClientId : String)
  | onErrorEvent (code message : String)
  | onError (message : String)
  | onReconnecting (attempt : Nat)

/-- What a client asks of the browser. -/
inductive Command
  /-- A new socket, and its `connect` to `/ws/v1/{wsSessionId}/sync` on the relay. -/
  | open (relayUrl wsSessionId : String) (token : Option String)
  | send (socket : Nat) (action : Action)
  | close (socket : Nat)
  | setTimeout (delayMs : Nat)
  | clearTimeout (timer : Nat)
  /-- `GET /api/v1/rooms/{sessionId}`. -/
  | fetch (relayUrl sessionId : String)
  | getToken

/-- What has yet to happen to a command. -/
inductive Task
  /-- The `connect` of a socket has to settle. -/
  | opening (socket : Nat)
  | retry (timer : Nat)
  | roomCheck (fetch : Nat)
  | token (request : Nat)
  deriving DecidableEq

/-- The fields of the class. -/
structure CollabClient where
  /-- The number of the socket. -/
  grpc : Option Nat := none
  clientId : String := ""
  isConnected : Bool := false
  isConnecting : Bool := false
  isOwner : Bool := false
  browserId : String := ""
  clientHint : String := ""
  relayUrl : String := ""
  sessionId : String := ""
  username : String := ""
  metadata : List (String × String) := []
  title : String := ""
  encrypted : Bool := false
  maxPeers : Int := 0
  roomEncrypted : Bool := false
  peers : AList fun _ : String => PeerInfoJson := ∅
  options : CollabClientOptions := {}
  retryCount : Nat := 0
  retryTimer : Option Nat := none
  explicitDisconnect : Bool := false
  hasJoined : Bool := false
  joinAsOwner : Bool := false
  maxRetries : Nat := 5
  asked : List Command := []
  tasks : List Task := []
  sockets : List Nat := []

namespace CollabClient

def resetState (c : CollabClient) : CollabClient :=
  { c with
    isConnected := false
    isConnecting := false
    clientId := ""
    isOwner := false
    peers := ∅
    grpc := none }

/-- The peer with this id while it is in the room. -/
def getPeer (clientId : String) (c : CollabClient) : Option PeerInfoJson := c.peers.lookup clientId

def reconnectEnabled (c : CollabClient) : Bool := c.options.reconnect.getD true

/-- `grpc?.close()`. -/
def close (grpc : Option Nat) (c : CollabClient) : CollabClient :=
  match grpc with
  | none => c
  | some socket =>
    { c with asked := c.asked ++ [.close socket], sockets := c.sockets.erase socket }

/-- `this.retryTimer = setTimeout(..)`. -/
def setTimeout (delayMs : Nat) (c : CollabClient) : CollabClient :=
  { c with
    retryTimer := some c.asked.length
    asked := c.asked ++ [.setTimeout delayMs]
    tasks := c.tasks ++ [.retry c.asked.length] }

/-- `this.peers.set(peer.clientId, peer)` for a peer with an id. -/
def setPeer (peer : PeerInfoJson) (c : CollabClient) : CollabClient :=
  if peer.clientId ≠ "" then { c with peers := c.peers.insert peer.clientId peer } else c

/-- The loop of `ownerChanged` over the peers. -/
def setOwner (newOwnerId : String) (peers : AList fun _ : String => PeerInfoJson) :
    AList fun _ : String => PeerInfoJson :=
  peers.entries.foldl
    (fun peers e => peers.insert e.1 { e.2 with isOwner := some (e.1 = newOwnerId) }) peers

/-- What the client takes from a `RoomJoined`, before its callbacks. -/
def setRoom (rj : RoomJoined) (c : CollabClient) : CollabClient :=
  { c with
    clientId := rj.clientId
    sessionId := if rj.room.sessionId ≠ "" then rj.room.sessionId else c.sessionId
    maxPeers := rj.maxPeers
    roomEncrypted := rj.room.encrypted
    title := rj.room.title
    isConnected := true
    isConnecting := false
    hasJoined := true
    retryCount := 0 }

/-- The entry of the client itself, which the relay leaves out of the peers. -/
def self (c : CollabClient) : PeerInfoJson where
  clientId := c.clientId
  username := c.username
  avatarUrl := ""
  clientType := "browser"
  isActive := true
  metadata := some c.metadata

end CollabClient

/-- A page with a client in it. -/
structure Page (σ : Type) where
  client : σ → CollabClient
  setClient : CollabClient → σ → σ
  call : Callback → σ → σ
  client_setClient : ∀ c s, client (setClient c s) = c

/-- A page whose callbacks leave the client alone. -/
structure Listener (σ : Type) extends Page σ where
  client_call : ∀ callback s, client (call callback s) = client s

namespace Page

variable {σ : Type} (page : Page σ)

def modify (f : CollabClient → CollabClient) (s : σ) : σ := page.setClient (f (page.client s)) s

@[simp] theorem client_modify (f : CollabClient → CollabClient) (s : σ) :
    page.client (page.modify f s) = f (page.client s) := page.client_setClient _ _

def addPeer (peer : PeerInfoJson) (s : σ) : σ :=
  page.call (.onPeerJoined peer) (page.modify (.setPeer peer) s)

def endSession (reason : String) (s : σ) : σ :=
  page.call (.onSessionEnded reason)
    (page.modify (fun c => { c with explicitDisconnect := true, isConnecting := false }) s)

/-- Closes a connection the relay ended. -/
def closeFromRelay (s : σ) : σ :=
  let grpc := (page.client s).grpc
  let wasConnected := (page.client s).isConnected
  let s := page.modify (fun c => { c with explicitDisconnect := true }.resetState.close grpc) s
  if wasConnected then page.call .onDisconnect s else s

def scheduleReconnect (s : σ) : σ :=
  if (page.client s).retryCount ≥ (page.client s).maxRetries then
    page.endSession "reconnect_failed" s
  else
    let attempt := (page.client s).retryCount + 1
    let s := page.modify (fun c => { c with retryCount := attempt, isConnecting := true }) s
    let s := page.call (.onReconnecting attempt) s
    let delay := min (((page.client s).options.retryDelayMs.getD 1000) * 2 ^ (attempt - 1)) 30000
    -- the timer is set even if `onReconnecting` has called `disconnect`
    page.modify (.setTimeout delay) s

/-- Closes a connection the relay evicted and starts reconnecting. -/
def dropAndReconnect (s : σ) : σ :=
  let grpc := (page.client s).grpc
  let wasConnected := (page.client s).isConnected
  let s := page.modify (fun c => c.resetState.close grpc) s
  let s := if wasConnected then page.call .onDisconnect s else s
  page.scheduleReconnect s

/-- A `SessionEnded` that the client may come back from. -/
def reconnectable (reason : String) (s : σ) : Bool :=
  reason = "slow_consumer" || (reason = "token_expired" && (page.client s).options.getToken)

def handleError (err : ErrorEvent) (s : σ) : σ :=
  let s := page.call (.onErrorEvent err.code err.message) s
  -- after the join the relay refuses one action, and keeps the stream open
  if (page.client s).isConnected then s
  else
    let s := page.closeFromRelay s
    if err.code = "ROOM_NOT_FOUND" && (page.client s).hasJoined then
      page.call (.onSessionEnded "session_gone") s
    else s

def handleRoomJoined (rj : RoomJoined) (s : σ) : σ :=
  let s := page.modify (.setRoom rj) s
  let s := page.call (.onConnect (page.client s).clientId) s
  -- `onConnect` still sees the peers of the room before
  let s := page.modify (fun c => { c with peers := ∅ }) s
  let s := page.addPeer (page.client s).self s
  rj.room.peers.foldl (fun s entry => page.addPeer (peerToJson entry.2) s) s

def handleSessionEnded (reason : String) (s : σ) : σ :=
  if page.reconnectable reason s && (page.client s).reconnectEnabled then page.dropAndReconnect s
  else page.call (.onSessionEnded reason) (page.closeFromRelay s)

def handleEvent (event : CollabEvent) (s : σ) : σ :=
  let s := page.call (.onEvent event) s
  match event.event with
  | .error err => page.handleError err s
  | .roomJoined rj => page.handleRoomJoined rj s
  | .peerJoined peer => page.addPeer (peerToJson peer) s
  | .peerLeft left =>
    page.call (.onPeerLeft left.clientId)
      (page.modify (fun c => { c with peers := c.peers.erase left.clientId }) s)
  | .sessionEnded reason => page.handleSessionEnded reason s
  | .ownerChanged newOwnerId =>
    page.call (.onOwnerChanged newOwnerId)
      (page.modify (fun c => { c with
        isOwner := newOwnerId = c.clientId
        peers := CollabClient.setOwner newOwnerId c.peers }) s)
  | .credentialsChanged cc => page.call (.onCredentialsChanged cc.reason) s
  | .titleChanged tc =>
    let s := page.modify (fun c => { c with title := tc.title }) s
    page.call (.onTitleChanged (page.client s).title) s
  | .appMessage msg =>
    page.call
      (.onAppMessage msg.kind msg.payload event.fromClientId (msg.toClientIds.head?.getD ""))
      s
  | _ => s

/-- The events of a socket, in order. -/
def handleEvents (events : List CollabEvent) (s : σ) : σ :=
  events.foldl (fun s event => page.handleEvent event s) s

end Page

end MassRelay.Ts

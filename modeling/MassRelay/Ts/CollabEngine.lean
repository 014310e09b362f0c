import MassRelay.Lib.Utf16
import MassRelay.Ts.Connection

/-!
# MassRelay.Ts.CollabEngine

The sync engine of `ts/src/CollabEngine.ts`: a state machine over a `CollabClient`, whose
callbacks it sets in `connect`, and an adapter of the editor.

The engine is a page with a client in it (`page`), so its callbacks are `call`. What it sends
through its client and what it calls on an adapter is on record in `log`, and the adapters answer
as they like (`Document`). Its asynchronous functions are numbered as they start: a call runs up
to its first `await`, and the rest of it waits in `pending` for the promise. An `await` of a
promise that rejects ends the call. A `send` throws unless the client is connected: in an
asynchronous function nobody hears of it, but thrown in `onEvent` it ends the client's handling
of the event (`receive`). What the engine emits to its listeners is left out: they return, and
call nothing.
-/

namespace MassRelay.Ts

/-- What `computeOutgoing` returns. -/
inductive OutgoingUpdate
  | sceneUpdate (sceneUpdate : SceneUpdate)
  | textUpdate (textUpdate : TextUpdate)
  deriving DecidableEq

def OutgoingUpdate.action : OutgoingUpdate → Action
  | .sceneUpdate su => .sceneUpdate su
  | .textUpdate tu => .textUpdate tu

/-- A call of a method of `SyncAdapter`, that of `computeOutgoing` with what it returns. -/
inductive AdapterCall
  | computeOutgoing (update : Option OutgoingUpdate)
  | applyRemote (fromClientId : String) (update : OutgoingUpdate)
  | getSceneSnapshot
  | applySceneInit (payload : String)
  | getCursorData
  | applyRemoteCursor (fromClientId username : String) (cursor : CursorUpdate)
  | removePeerCursor (clientId : String)
  deriving DecidableEq

/-- What an engine does to others. -/
inductive Effect
  | send (action : Action)
  | call (adapter : Nat) (call : AdapterCall)
  deriving DecidableEq

inductive Phase
  | disconnected
  | connecting
  | connected
  deriving DecidableEq

structure CollabEngineState where
  phase : Phase := .disconnected
  isInitialized : Bool := false
  clientId : String := ""
  sessionId : String := ""
  isOwner : Bool := false
  ownerClientId : String := ""
  peers : AList fun _ : String => PeerInfoJson := ∅
  error : Option String := none
  roomEncrypted : Bool := false
  maxPeers : Int := 0
  roomTitle : String := ""

/-- What waits for a promise of `encryptPayload` or `decryptPayload`. -/
inductive Continuation
  /-- One element of a scene update, after those done and before those to do. -/
  | scene (adapter : Nat) (fromClientId : String) (done : List ElementUpdate)
      (element : ElementUpdate) (todo : List ElementUpdate)
  | text (adapter : Nat) (fromClientId : String) (update : TextUpdate)
  | sceneInit (adapter : Nat)
  | snapshot
  | outgoingScene (done : List ElementUpdate) (element : ElementUpdate) (todo : List ElementUpdate)
  | outgoingText (update : TextUpdate)
  deriving DecidableEq

inductive TimerCallback
  | flushOutgoing
  | sendCursor
  deriving DecidableEq

structure CollabEngine where
  client : CollabClient
  state : CollabEngineState := {}
  adapter : Option Nat := none
  /-- A `CryptoKey`, by its number. -/
  encryptionKey : Option Nat := none
  debounceTimer : Option Nat := none
  cursorTimer : Option Nat := none
  cursorPending : Bool := false
  initRequestSent : Bool := false
  disposed : Bool := false
  connectParams : Option ConnectArgs := none
  /-- The timers that have yet to fire, by their numbers, and how many were set. -/
  timers : List (Nat × TimerCallback) := []
  set : Nat := 0
  /-- What it did, with the number of the asynchronous call that did it, if one did. -/
  log : List (Option Nat × Effect) := []
  /-- The asynchronous calls that wait for a promise, and how many there were. -/
  pending : List (Nat × Continuation) := []
  started : Nat := 0
  /-- The events that its client has handled. -/
  handled : List CollabEvent := []

/-- What the adapters answer, which may depend on everything so far, and the timer provider: the
handle that it gives the `n`-th timer, if that is not null, which handles are true, and whether
`clearTimeout` of a handle stops the `n`-th timer, once so many were set. -/
structure Document where
  computeOutgoing : CollabEngine → Option OutgoingUpdate
  getSceneSnapshot : CollabEngine → String
  getCursorData : CollabEngine → Option CursorUpdate
  handle : Nat → Option Nat := some
  truthy : Nat → Bool := fun _ => true
  cancels : Nat → Nat → Nat → Bool := fun _ h n => handle n = some h

namespace CollabEngine

variable (doc : Document) (e : CollabEngine)

def updateState (f : CollabEngineState → CollabEngineState) : CollabEngine :=
  { e with state := f e.state }

def record (origin : Option Nat) (effect : Effect) : CollabEngine :=
  { e with log := e.log ++ [(origin, effect)] }

/-- `this._client.send(action)`, which may throw. -/
def send (origin : Option Nat) (action : Action) : Option CollabEngine :=
  (e.client.send action).map fun client => { e with client }.record origin (.send action)

def setTimeout (callback : TimerCallback) : CollabEngine :=
  { e with timers := e.timers ++ [(e.set, callback)], set := e.set + 1 }

def clearTimeout (handle : Nat) : CollabEngine :=
  { e with timers := e.timers.filter fun timer => !doc.cancels e.set handle timer.1 }

/-- Takes a timer that fires. -/
def expire (timer : Nat) : CollabEngine :=
  { e with timers := e.timers.filter (·.1 ≠ timer) }

def await (n : Nat) (continuation : Continuation) : CollabEngine :=
  { e with pending := e.pending ++ [(n, continuation)] }

/-- Starts an asynchronous call. -/
def begin : CollabEngine := { e with started := e.started + 1 }

/-- Has handled an event. -/
def hear (event : CollabEvent) : CollabEngine := { e with handled := e.handled ++ [event] }

def clearDebounce : CollabEngine :=
  match e.debounceTimer with
  | some handle =>
    if doc.truthy handle then { e.clearTimeout doc handle with debounceTimer := none } else e
  | none => e

def clearCursor : CollabEngine :=
  match e.cursorTimer with
  | some handle =>
    if doc.truthy handle then { e.clearTimeout doc handle with cursorTimer := none } else e
  | none => e

def clearTimers : CollabEngine := (e.clearDebounce doc).clearCursor doc

def resetState : CollabEngine :=
  { e.clearTimers doc with initRequestSent := false }.updateState fun s =>
    { s with
      phase := .disconnected
      isInitialized := false
      clientId := ""
      sessionId := ""
      isOwner := false
      ownerClientId := ""
      peers := ∅
      roomEncrypted := false
      maxPeers := 0
      roomTitle := "" }

/-- Throws when there are peers to ask and the client is not connected. -/
def triggerSceneInit : Option CollabEngine :=
  if e.state.peers.keys.length ≤ 1 then
    some (e.updateState fun s => { s with isInitialized := true })
  else (e.send none .sceneInitRequest).map fun e => { e with initRequestSent := true }

/-! ### Sync events -/

/-- The loop of a scene update over its elements, with a key or without. -/
def decryptScene (n adapter : Nat) (fromClientId : String) (done : List ElementUpdate) :
    List ElementUpdate → CollabEngine
  | [] => e.record n (.call adapter (.applyRemote fromClientId (.sceneUpdate { elements := done })))
  | element :: todo =>
    if element.data = "" then decryptScene n adapter fromClientId (done ++ [element]) todo
    else if e.encryptionKey.isSome then e.await n (.scene adapter fromClientId done element todo)
    -- the key was taken away meanwhile: `decryptPayload` throws, and the update is dropped
    else e

def applySceneInit (n adapter : Nat) (payload : String) : CollabEngine :=
  (e.record n (.call adapter (.applySceneInit payload))).updateState fun s =>
    { s with isInitialized := true }

/-- `candidates.sort()[0]`. -/
def lowest (candidates : List String) : Option String := (Utf16.sort candidates).head?

def shouldRespond (fromClientId : String) : Bool :=
  e.state.isOwner || (e.state.clientId ≠ "" &&
    lowest (e.state.peers.keys.filter (· ≠ fromClientId)) = some e.state.clientId)

/-- A `send` that throws where nobody hears of it. -/
def trySend (origin : Option Nat) (action : Action) : CollabEngine := (e.send origin action).getD e

/-- `_handleSyncEvent`, the `n`-th asynchronous call, up to its first `await`. -/
def syncEvent (n : Nat) (event : CollabEvent) : CollabEngine :=
  match e.adapter with
  | none => e
  | some adapter =>
    match event.event with
    | .sceneUpdate su =>
      if e.encryptionKey.isSome then e.decryptScene n adapter event.fromClientId [] su.elements
      else e.record n (.call adapter (.applyRemote event.fromClientId (.sceneUpdate su)))
    | .textUpdate tu =>
      if e.encryptionKey.isSome then e.await n (.text adapter event.fromClientId tu)
      else e.record n (.call adapter (.applyRemote event.fromClientId (.textUpdate tu)))
    | .cursorUpdate cu =>
      if event.fromClientId = "" then e
      else
        let username := ((e.state.peers.lookup event.fromClientId).map (·.username)).getD ""
        let short := String.ofList (event.fromClientId.toList.take 6)
        e.record n (.call adapter (.applyRemoteCursor event.fromClientId
          (if username = "" then short else username) cu))
    | .sceneInitResponse response =>
      let payload := if response.payload = "" then "{}" else response.payload
      if e.encryptionKey.isSome && payload ≠ "{}" then e.await n (.sceneInit adapter)
      else e.applySceneInit n adapter payload
    | .sceneInitRequest =>
      if event.fromClientId ≠ "" && e.shouldRespond event.fromClientId then
        let snapshot := doc.getSceneSnapshot e
        let e := e.record n (.call adapter .getSceneSnapshot)
        if e.encryptionKey.isSome then e.await n .snapshot
        else e.trySend n (.sceneInitResponse { payload := snapshot })
      else e
    | _ => e

def handleSyncEvent (event : CollabEvent) : CollabEngine :=
  e.begin.syncEvent doc e.started event

/-- The loop of `_flushOutgoing` over the elements of a scene update. -/
def encryptScene (n : Nat) (done : List ElementUpdate) : List ElementUpdate → CollabEngine
  | [] => e.trySend n (.sceneUpdate { elements := done })
  | element :: todo =>
    if element.data = "" then encryptScene n (done ++ [element]) todo
    else if e.encryptionKey.isSome then e.await n (.outgoingScene done element todo)
    -- nothing is sent without the key
    else e

/-- What `_flushOutgoing`, the `n`-th asynchronous call, does with an update. -/
def sendOutgoing (n : Nat) : OutgoingUpdate → CollabEngine
  | .sceneUpdate su =>
    if e.encryptionKey.isSome then e.encryptScene n [] su.elements
    else e.trySend n (.sceneUpdate su)
  | .textUpdate tu =>
    if e.encryptionKey.isSome then e.await n (.outgoingText tu) else e.trySend n (.textUpdate tu)

/-- `_flushOutgoing`, up to its first `await`. -/
def flushOutgoing : CollabEngine :=
  let n := e.started
  let e := e.begin
  match e.adapter with
  | none => e
  | some adapter =>
    -- a change that is due while the engine is down is not sent later
    if e.state.phase ≠ .connected then e
    else
      let update := doc.computeOutgoing e
      let e := e.record n (.call adapter (.computeOutgoing update))
      match update with
      | none => e
      | some update => e.sendOutgoing n update

/-- What follows an `await` of the `n`-th asynchronous call, with the value of its promise. -/
def resume (n : Nat) (value : String) : Continuation → CollabEngine
  | .scene adapter fromClientId done element todo =>
    e.decryptScene n adapter fromClientId (done ++ [{ element with data := value }]) todo
  | .text adapter fromClientId update => e.record n
    (.call adapter (.applyRemote fromClientId (.textUpdate { update with text := value })))
  | .sceneInit adapter => e.applySceneInit n adapter value
  | .snapshot => e.trySend n (.sceneInitResponse { payload := value })
  | .outgoingScene done element todo =>
    e.encryptScene n (done ++ [{ element with data := value }]) todo
  | .outgoingText update => e.trySend n (.textUpdate { update with text := value })

/-! ### The callbacks -/

/-- What the engine takes from a `RoomJoined`, before the client does. -/
def enterRoom (rj : RoomJoined) : CollabEngine :=
  e.updateState fun s => { s with
    sessionId := if rj.room.sessionId ≠ "" then rj.room.sessionId
      else (e.connectParams.map (·.sessionId)).getD ""
    ownerClientId := rj.room.ownerClientId
    isOwner := s.clientId = rj.room.ownerClientId || (e.connectParams.map (·.isOwner)).getD false
    roomEncrypted := rj.room.encrypted
    maxPeers := rj.maxPeers
    roomTitle := rj.room.title }

/-- Whether a `RoomJoined` makes the engine ask for the scene, or find itself alone. -/
def wantsScene : Bool := !e.state.isInitialized && !e.initRequestSent && e.adapter.isSome

def onEvent (event : CollabEvent) : CollabEngine :=
  match event.event with
  | .roomJoined rj =>
    let e := e.enterRoom rj
    if e.wantsScene then
      match e.triggerSceneInit with
      | none => e
      | some e => e.handleSyncEvent doc event
    else e.handleSyncEvent doc event
  | _ => e.handleSyncEvent doc event

/-- Whether `onEvent` throws. -/
def throws (event : CollabEvent) : Bool :=
  match event.event with
  | .roomJoined rj => (e.enterRoom rj).wantsScene && (e.enterRoom rj).triggerSceneInit.isNone
  | _ => false

def sessionEndedMessage (reason : String) : String :=
  if reason = "session_gone" then "The sharing session no longer exists on the relay"
  else if reason = "reconnect_failed" then "Lost the connection to the relay"
  else "The owner ended the sharing session"

def credentialsMessage (reason : String) : String :=
  if reason = "password_removed" then "Encryption was removed — please reconnect"
  else "Password changed — please reconnect with the new password"

/-- The callbacks that `_wireClient` sets. -/
def call : Callback → CollabEngine
  | .onConnect clientId =>
    e.updateState fun s => { s with phase := .connected, clientId, error := none }
  | .onPeerJoined peer =>
    if peer.clientId = "" then e
    else e.updateState fun s => { s with peers := s.peers.insert peer.clientId peer }
  | .onPeerLeft clientId =>
    let e := e.updateState fun s => { s with peers := s.peers.erase clientId }
    match e.adapter with
    | none => e
    | some adapter => e.record none (.call adapter (.removePeerCursor clientId))
  | .onError message => e.updateState fun s => { s with error := some message }
  | .onErrorEvent code message =>
    if e.client.isConnected then e
    else e.updateState fun s =>
      { s with error := some (code ++ ": " ++ message), phase := .disconnected }
  | .onCredentialsChanged reason =>
    (e.resetState doc).updateState fun s => { s with error := some (credentialsMessage reason) }
  | .onTitleChanged title => e.updateState fun s => { s with roomTitle := title }
  | .onDisconnect => e.resetState doc
  | .onSessionEnded reason =>
    (e.resetState doc).updateState fun s => { s with error := some (sessionEndedMessage reason) }
  | .onOwnerChanged newOwnerClientId =>
    e.updateState fun s =>
      { s with ownerClientId := newOwnerClientId, isOwner := s.clientId = newOwnerClientId }
  | .onEvent event => e.onEvent doc event
  | .onAppMessage .. | .onReconnecting _ => e

/-- The page of the engine, for its client. -/
def page : Page CollabEngine where
  client := client
  setClient c e := { e with client := c }
  call callback e := e.call doc callback
  client_setClient _ _ := rfl

/-- `handleEvent` of the client, which ends where `onEvent` throws. -/
def receive (event : CollabEvent) : CollabEngine :=
  if e.throws event then e.call doc (.onEvent event)
  else ((page doc).handleEvent event e).hear event

/-! ### The public methods -/

/-- `connect` up to the `connect` of the client. -/
def wire (params : ConnectArgs) : CollabEngine :=
  { e with connectParams := some params }.updateState fun s =>
    { s with phase := .connecting, error := none }

/-- None when it throws. -/
def connect (params : ConnectArgs) : Option CollabEngine :=
  (page doc).connect params (e.wire params)

def disconnect : CollabEngine := (page doc).disconnect e

def dispose : CollabEngine :=
  let e := { e with disposed := true }
  (if e.state.phase ≠ .disconnected then e.disconnect doc else e).clearTimers doc

def setAdapter (adapter : Option Nat) : CollabEngine :=
  let e := { e with adapter }
  if adapter.isSome && e.state.phase = .connected && !e.state.isInitialized && !e.initRequestSent
  then e.triggerSceneInit.getD e
  else e

def notifyLocalChange : CollabEngine :=
  let e := match e.debounceTimer with
    | some handle => e.clearTimeout doc handle
    | none => e
  { e.setTimeout .flushOutgoing with debounceTimer := doc.handle e.set }

def notifyCursorMove : CollabEngine :=
  if e.adapter.isNone || e.state.phase ≠ .connected || e.cursorPending then e
  else { e.setTimeout .sendCursor with cursorPending := true, cursorTimer := doc.handle e.set }

/-- What the timer of `notifyCursorMove` runs. -/
def sendCursor : CollabEngine :=
  let e := { e with cursorPending := false }
  match e.adapter with
  | none => e
  | some adapter =>
    let cursor := doc.getCursorData e
    let e := e.record none (.call adapter .getCursorData)
    match cursor with
    | none => e
    | some cursor => e.trySend none (.cursorUpdate cursor)

end CollabEngine

/-- A call of an engine by its application. -/
inductive EngineCall
  | connect (params : ConnectArgs)
  | disconnect
  | dispose
  | setAdapter (adapter : Option Nat)
  | setEncryptionKey (key : Option Nat)
  | notifyLocalChange
  | notifyCursorMove
  | notifyCredentialsChanged (reason : String)
  | notifyTitleChanged (title : String)

/-- What happens to an engine. -/
inductive EngineMove
  | call (call : EngineCall)
  /-- A job of its client. -/
  | job (job : Job)
  /-- A timer of its own fires. -/
  | fired (timer : Nat)
  /-- The promise of an asynchronous call resolves to a value, or rejects. -/
  | settled (n : Nat) (value : Option String)

namespace CollabEngine

variable (doc : Document) (e : CollabEngine)

/-- A call that throws leaves what it did before. -/
def perform : EngineCall → CollabEngine
  | .connect params => (e.connect doc params).getD (e.wire params)
  | .disconnect => e.disconnect doc
  | .dispose => e.dispose doc
  | .setAdapter adapter => e.setAdapter adapter
  | .setEncryptionKey key => { e with encryptionKey := key }
  | .notifyLocalChange => e.notifyLocalChange doc
  | .notifyCursorMove => e.notifyCursorMove doc
  | .notifyCredentialsChanged reason => e.trySend none (.credentialsChanged { reason })
  | .notifyTitleChanged title => e.trySend none (.titleChanged { title })

/-- Runs a job of the client, when the browser can have it. -/
def run : Job → Option CollabEngine
  | .message socket event => if e.client.isSocket socket then some (e.receive doc event) else none
  | job => (page doc).run job e

def fire (timer : Nat) : Option CollabEngine :=
  (e.timers.lookup timer).map fun callback =>
    let e := e.expire timer
    match callback with
    | .flushOutgoing => e.flushOutgoing doc
    | .sendCursor => e.sendCursor doc

/-- The promise that the `n`-th asynchronous call awaits settles, and the call goes on, or ends. -/
def settle (n : Nat) (value : Option String) : Option CollabEngine :=
  (e.pending.lookup n).map fun continuation =>
    let e := { e with pending := e.pending.filter (·.1 ≠ n) }
    match value with
    | none => e
    | some value => e.resume n value continuation

def step : EngineMove → Option CollabEngine
  | .call call => some (e.perform doc call)
  | .job job => e.run doc job
  | .fired timer => e.fire doc timer
  | .settled n value => e.settle n value

/-- An engine with a client that it has not connected yet. -/
def start (options : CollabClientOptions) (maxRetries : Nat) (adapter : Option Nat) :
    CollabEngine where
  client := { options, maxRetries }
  adapter

end CollabEngine

/-! ### A session to try -/

/-- Adapters that have nothing to send. -/
def Document.blank : Document where
  computeOutgoing _ := none
  getSceneSnapshot _ := "snapshot"
  getCursorData _ := none

def plainParams (isOwner : Bool) : ConnectArgs where
  relayUrl := "ws"
  sessionId := "s"
  username := "page"
  metadata := []
  isOwner

def plainPeer (clientId : String) : PeerInfo where
  clientId
  username := "peer"
  avatarUrl := ""
  clientType := "browser"
  isActive := true
  isOwner := false
  metadata := none
  identity := none

/-- The answer to a join. -/
def joinedAs (clientId ownerClientId : String) (peers : List String) : CollabEvent where
  eventId := "e"
  event := .roomJoined
    { clientId
      room :=
        { sessionId := "s", peers := peers.map fun id => (id, plainPeer id), ownerClientId
          metadata := none, encrypted := false, title := "" }
      maxPeers := 10
      protocolVersion := 2 }

def peerJoinedEvent (clientId : String) : CollabEvent where
  eventId := "e"
  event := .peerJoined (plainPeer clientId)

end MassRelay.Ts

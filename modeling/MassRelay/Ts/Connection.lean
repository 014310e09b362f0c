import MassRelay.Ts.CollabClient

/-!
# MassRelay.Ts.Connection

The connection of a `CollabClient`: `connect` and `disconnect`, and what it does when a socket
opens, closes or delivers, when its retry timer fires, and when a room check or `getToken`
settles.

JavaScript runs one job at a time, each to its end, so a job is a function on the page. The
`beforeunload` listener of `connect` is a call of `disconnect`. `Promise.resolve().then(getToken)`
runs the `getToken` of the page on its own, as `fetch` runs last in its job, so that what the page
does there is a job before or after. The socket is that of `GRPCWSClient`: its `connect` may
settle late or never, and nothing is assumed here of what it reports after a `close`.
-/

namespace MassRelay.Ts

/-- The arguments of `connect`. -/
structure ConnectArgs where
  relayUrl : String
  sessionId : String
  username : String
  metadata : List (String × String)
  isOwner : Bool := false
  browserId : String := ""
  clientHint : String := ""
  encrypted : Bool := false
  title : String := ""
  /-- The name for one who gives none: `Anon-` and four random characters. -/
  anon : String := "Anon-0000"

/-- A call of the page on its client. -/
inductive AppCall
  | connect (args : ConnectArgs)
  | disconnect

/-- What the browser runs of a client. -/
inductive Job
  /-- The `connect` of a socket resolves. -/
  | opened (socket : Nat)
  | refused (socket : Nat)
  /-- `onClose`, `onError` and `onMessage` of a socket. -/
  | closed (socket : Nat)
  | failed (socket : Nat) (message : String)
  | message (socket : Nat) (event : CollabEvent)
  | fired (timer : Nat)
  /-- A room check answers with a status, or not at all. -/
  | checked (fetch : Nat) (status : Option Nat)
  | gotToken (request : Nat) (token : String)
  | tokenFailed (request : Nat) (message : String)

/-- What happens to a client. -/
inductive Move
  | call (call : AppCall)
  | job (job : Job)

namespace CollabClient

def connect (args : ConnectArgs) (c : CollabClient) : CollabClient :=
  { c with
    relayUrl := args.relayUrl
    sessionId := args.sessionId
    username := if args.username = "" then args.anon else args.username
    metadata := args.metadata
    title := args.title
    isOwner := args.isOwner
    joinAsOwner := args.isOwner
    browserId := args.browserId
    clientHint := args.clientHint
    encrypted := args.encrypted
    isConnecting := true
    explicitDisconnect := false
    hasJoined := false
    retryCount := 0 }

def openWebSocket (token : Option String) (c : CollabClient) : CollabClient :=
  { c with
    grpc := some c.asked.length
    asked := c.asked ++
      [.open c.relayUrl (if c.sessionId = "" then "_new" else c.sessionId) (token.filter (· ≠ ""))]
    tasks := c.tasks ++ [.opening c.asked.length]
    sockets := c.sockets ++ [c.asked.length] }

def openWithToken (c : CollabClient) : CollabClient :=
  if c.options.getToken then
    { c with
      asked := c.asked ++ [.getToken]
      tasks := c.tasks ++ [.token c.asked.length] }
  else c.openWebSocket c.options.token

def joinAction (c : CollabClient) : JoinRoom where
  sessionId := c.sessionId
  username := c.username
  metadata := some c.metadata
  clientType := "browser"
  isOwner := c.joinAsOwner
  browserId := c.browserId
  clientHint := c.clientHint
  protocolVersion := 2
  encrypted := c.encrypted
  title := c.title
  mustExist := c.hasJoined

def endTask (task : Task) (c : CollabClient) : CollabClient :=
  { c with tasks := c.tasks.filter (· ≠ task) }

/-- `this.grpc?.send(action)`. -/
def sendOn (action : Action) (c : CollabClient) : CollabClient :=
  match c.grpc with
  | none => c
  | some socket => { c with asked := c.asked ++ [.send socket action] }

/-- `send`, which throws when the client is not connected. -/
def send (action : Action) (c : CollabClient) : Option CollabClient :=
  if c.isConnected && c.grpc.isSome then some (c.sendOn action) else none

def clearRetry (c : CollabClient) : CollabClient :=
  match c.retryTimer with
  | none => c
  | some timer =>
    { c.endTask (.retry timer) with
      retryTimer := none
      asked := c.asked ++ [.clearTimeout timer] }

/-- `disconnect` up to its socket. -/
def stop (c : CollabClient) : CollabClient :=
  { { c with explicitDisconnect := true }.clearRetry with isConnecting := false }

/-- `disconnect` of a client with a socket, up to its callback. -/
def hangUp (c : CollabClient) : CollabClient :=
  let grpc := c.grpc
  let c := if c.isConnected then c.sendOn (.leave { reason := "user disconnected" }) else c
  c.resetState.close grpc

/-- The first half of `rejoinIfRoomExists`. -/
def checkRoom (c : CollabClient) : CollabClient :=
  { c with
    asked := c.asked ++ [.fetch c.relayUrl c.sessionId]
    tasks := c.tasks ++ [.roomCheck c.asked.length] }

/-- Whether this command opened a socket. -/
def isSocket (c : CollabClient) (socket : Nat) : Bool :=
  match c.asked[socket]? with
  | some (.open ..) => true
  | _ => false

end CollabClient

namespace Page

variable {σ : Type} (page : Page σ)

/-- `connect`, which throws when the client is connected. -/
def connect (args : ConnectArgs) (s : σ) : Option σ :=
  if (page.client s).isConnected then none
  else some (page.modify (fun c => (c.connect args).openWithToken) s)

def disconnect (s : σ) : σ :=
  let s := page.modify .stop s
  if (page.client s).grpc = none then s
  else
    let wasConnected := (page.client s).isConnected
    let s := page.modify .hangUp s
    if wasConnected then page.call .onDisconnect s else s

def handleConnectionClosed (s : σ) : σ :=
  let wasConnected := (page.client s).isConnected
  let s := page.modify .resetState s
  let s := if wasConnected then page.call .onDisconnect s else s
  if !(page.client s).explicitDisconnect && (page.client s).hasJoined &&
      (page.client s).reconnectEnabled then
    page.scheduleReconnect s
  else s

/-- The second half of `rejoinIfRoomExists`. -/
def roomChecked (status : Option Nat) (s : σ) : σ :=
  if (page.client s).explicitDisconnect then s
  else if status = some 404 then page.endSession "session_gone" s
  else if status = some 200 then page.modify .openWithToken s
  -- any other answer, and none at all, counts as a failed attempt
  else page.scheduleReconnect s

def gotToken (token : String) (s : σ) : σ :=
  if (page.client s).explicitDisconnect then s else page.modify (.openWebSocket (some token)) s

def getTokenFailed (message : String) (s : σ) : σ :=
  let s := page.call (.onError message) s
  if (page.client s).explicitDisconnect then s
  else if (page.client s).hasJoined then page.scheduleReconnect s
  -- a first connection is not tried again
  else page.modify (fun c => { c with isConnecting := false }) s

/-- Ends a task and goes on, unless nothing waits for it. -/
def settle (task : Task) (andThen : σ → σ) (s : σ) : Option σ :=
  if task ∈ (page.client s).tasks then some (andThen (page.modify (.endTask task) s)) else none

/-- Runs a job, when the browser can have it. -/
def run : Job → σ → Option σ
  | .opened socket => page.settle (.opening socket) <|
    -- the join goes out on the socket of now, which need not be this one
    page.modify fun c => c.sendOn (.join c.joinAction)
  | .refused socket => page.settle (.opening socket) id
  | .closed socket => fun s =>
    if (page.client s).isSocket socket then
      let s := page.modify (fun c => { c with sockets := c.sockets.erase socket }) s
      -- only the current socket counts
      some (if (page.client s).grpc = some socket then page.handleConnectionClosed s else s)
    else none
  | .failed socket message => fun s =>
    if (page.client s).isSocket socket then some (page.call (.onError message) s) else none
  | .message socket event => fun s =>
    if (page.client s).isSocket socket then some (page.handleEvent event s) else none
  | .fired timer => page.settle (.retry timer) <| page.modify fun c =>
    { c with retryTimer := none }.checkRoom
  | .checked fetch status => page.settle (.roomCheck fetch) (page.roomChecked status)
  | .gotToken request token => page.settle (.token request) (page.gotToken token)
  | .tokenFailed request message => page.settle (.token request) (page.getTokenFailed message)

/-- A call as the client has it; one that throws is none. -/
def apply : AppCall → σ → Option σ
  | .connect args => page.connect args
  | .disconnect => fun s => some (page.disconnect s)

variable {page}

theorem settle_eq_some {task : Task} {andThen : σ → σ} {s t : σ} :
    page.settle task andThen s = some t ↔
      task ∈ (page.client s).tasks ∧ andThen (page.modify (.endTask task) s) = t := by
  rw [settle, Option.ite_none_right_eq_some, Option.some.injEq]

end Page

end MassRelay.Ts

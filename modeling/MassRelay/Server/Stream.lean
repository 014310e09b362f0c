import MassRelay.Lib.Threads
import MassRelay.Services.Call

/-!
# MassRelay.Server.Stream

The relay as a whole: any number of `CollabBidiStream`s of `web/server/stream.go`
on one service.

Each call of a stream's methods runs in a goroutine, as a program over the steps of
the service and those on the stream itself (`Op`). The `bridge` of a client loops
for as long as the client has a connection, so it is not a program but a state
machine on the stream (`Bridge`), of which each `select` is one transition.

What comes from outside is a `Launch`: a call by the WebSocket layer (`Send`,
`Recv`, `CloseSend`), the cancellation of a context, the expiry timer, the choice a
bridge's `select` makes, or a call of an embedding server. The number in a move
decides what Go leaves open: which ready case a `select` takes, the order of a map,
and whether the rate limiter has a token.

A send on a closed `sendCh` and a second `close` of it panic, which ends the
process: from then on no move is enabled.
-/

namespace MassRelay

/-- An entry of a stream's `sendCh`: an event that the bridge of a client passed on,
or one that `reply` queued. -/
inductive Item
  | room (client : String) (queued : Queued)
  | reply (e : CollabEvent)
  deriving DecidableEq

def Item.event : Item → CollabEvent
  | .room _ q => q.event
  | .reply e => e

/-- Where the bridge of a client is: before `go s.bridge(client)`, at its outer
`select`, at the inner one with an event in hand, in `evictSlow` with or without one,
about to end the session, or returned. -/
inductive Bridge
  | off
  | forwarding
  | holding (q : Queued)
  | evicting (held : Option Queued)
  | ending
  | ended
  deriving DecidableEq

/-- The `sync.Once` of `endSession`. -/
inductive Once
  | idle
  | running
  | done
  deriving DecidableEq

/-- What a stream is opened with: the principal of its token, the limit of its rate
limiter as `%g` prints it, and whether its token has an expiry. -/
structure StreamConfig where
  principal : Ctx := none
  messageLimiter : Option String := none
  expires : Bool := false

/-- The state of a `CollabBidiStream`. The last four fields are history. -/
structure Stream where
  cancelled : Bool := false
  sendCh : Go.Chan Item 64 := .make
  ended : Bool := false
  endOnce : Once := .idle
  expiryFired : Bool := false
  expiryStopped : Bool := false
  watched : Bool := false
  sessionId : String := ""
  clientId : String := ""
  bridges : String → Bridge := fun _ => .off
  /-- What was put on `sendCh` so far, and what `Recv` returned of it. -/
  queued : List Item := []
  returned : List Item := []
  /-- The `RoomJoined` answers that this stream's joins got. -/
  answered : List RoomJoined := []
  /-- The clients whose `RoomJoined` is still to be put on `sendCh`. -/
  unanswered : List String := []

/-- The relay: its service, its streams, and whether a stream's channel brought it
down. -/
structure Relay where
  svc : CollabService
  streams : Nat → Stream := fun _ => {}
  panicked : Bool := false

/-- One step on a stream. -/
inductive StreamOp
  | allow
  | readClientId
  | store (rj : RoomJoined)
  | goBridge (clientId : String)
  | reply (e : CollabEvent)
  | onceEnter
  | onceExit
  | closeEnded
  | clear
  | closeSendCh
  | stopExpiry

@[reducible] def StreamOp.Res : StreamOp → Type
  | .allow | .reply _ | .onceEnter => Bool
  | .readClientId => String
  | .clear => String × String
  | .store _ | .goBridge _ | .onceExit | .closeEnded | .closeSendCh | .stopExpiry => Unit

/-- One step of a goroutine of the relay. -/
inductive Op
  | service (o : ServiceOp)
  | stream (i : Nat) (o : StreamOp)

@[reducible] def Op.Res : Op → Type
  | .service o => o.Res
  | .stream _ o => o.Res

namespace Relay

def modifyStream (s : Relay) (i : Nat) (f : Stream → Stream) : Relay :=
  { s with streams := Function.update s.streams i (f (s.streams i)) }

/-- The process is down. -/
def crashed (s : Relay) : Bool := s.panicked || s.svc.panicked

/-- `s.sendCh <- item`; `none` when it has to wait. -/
def put? (s : Relay) (i : Nat) (item : Item) : Option Relay :=
  -- a send on a closed channel panics
  if (s.streams i).sendCh.closed then some { s with panicked := true }
  else
    ((s.streams i).sendCh.push? item).map fun ch =>
      s.modifyStream i fun st => { st with sendCh := ch, queued := st.queued ++ [item] }

/-- A reply was put on `sendCh`: a `RoomJoined` is no longer outstanding. -/
def noteReplied (s : Relay) (i : Nat) (e : CollabEvent) : Relay :=
  match e.event with
  | .roomJoined rj =>
    s.modifyStream i fun st => { st with unanswered := st.unanswered.filter (· ≠ rj.clientId) }
  | _ => s

/-- `reply`: even choices send, odd ones see the context done. -/
def reply (s : Relay) (i : Nat) (e : CollabEvent) (n : Nat) : Option (Relay × Bool) :=
  if n % 2 = 0 then (s.put? i (.reply e)).map fun s => (s.noteReplied i e, true)
  else if (s.streams i).cancelled then some (s, false)
  else none

end Relay

/-- What a step on stream `i` does. -/
def StreamOp.apply (i n : Nat) : (o : StreamOp) → Relay → Option (Relay × o.Res)
  | .allow, s => some (s, n % 2 = 0)
  | .readClientId, s => some (s, (s.streams i).clientId)
  | .store rj, s =>
    some (s.modifyStream i fun st =>
      { st with
        sessionId := rj.room.sessionId
        clientId := rj.clientId
        answered := st.answered ++ [rj]
        unanswered := rj.clientId :: st.unanswered }, ())
  | .goBridge c, s =>
    some (s.modifyStream i fun st =>
      { st with bridges := Function.update st.bridges c .forwarding }, ())
  | .reply e, s => s.reply i e n
  | .onceEnter, s =>
    match (s.streams i).endOnce with
    | .idle => some (s.modifyStream i fun st => { st with endOnce := .running }, true)
    -- `Once.Do` returns to nobody before the first caller is through
    | .running => none
    | .done => some (s, false)
  | .onceExit, s => some (s.modifyStream i fun st => { st with endOnce := .done }, ())
  | .closeEnded, s => some (s.modifyStream i fun st => { st with ended := true }, ())
  | .clear, s =>
    some (s.modifyStream i fun st => { st with sessionId := "", clientId := "" },
      ((s.streams i).sessionId, (s.streams i).clientId))
  | .closeSendCh, s =>
    if (s.streams i).sendCh.closed then some ({ s with panicked := true }, ())
    else some (s.modifyStream i fun st => { st with sendCh := st.sendCh.close }, ())
  | .stopExpiry, s => some (s.modifyStream i fun st => { st with expiryStopped := true }, ())

/-- A step of goroutine `g`. -/
def Op.exec (u : UuidSource) (g : Goroutine) (n : Nat) :
    (o : Op) → Relay → Option (Relay × o.Res)
  | .service o, s =>
    if s.crashed then none
    else (o.apply u g n s.svc).map fun (svc, r) => ({ s with svc }, r)
  | .stream i o, s => if s.crashed then none else o.apply i n s

/-! ### The methods of a stream -/

/-- A program of the relay. -/
abbrev Proc := Prog Op Op.Res

/-- A call of the service. -/
def Call.proc {α : Type} (call : Call α) : Proc α := call.embed .service fun _ r => r

namespace Stream

abbrev perform (i : Nat) (o : StreamOp) : Proc o.Res := Prog.perform (Op.stream i o)

/-- `fmt`'s `%q` of a string; what is not ASCII is taken to be printable. -/
def goQuote (s : String) : String :=
  let hex (n : Nat) : Char := "0123456789abcdef".toList.getD n '0'
  let escape (c : Char) : List Char :=
    if c = '"' then ['\\', '"'] else if c = '\\' then ['\\', '\\']
    else if c.toNat = 7 then ['\\', 'a'] else if c.toNat = 8 then ['\\', 'b']
    else if c.toNat = 9 then ['\\', 't'] else if c.toNat = 10 then ['\\', 'n']
    else if c.toNat = 11 then ['\\', 'v'] else if c.toNat = 12 then ['\\', 'f']
    else if c.toNat = 13 then ['\\', 'r']
    else if c.toNat < 32 ∨ c.toNat = 127 then
      ['\\', 'x', hex (c.toNat / 16), hex (c.toNat % 16)]
    else [c]
  "\"" ++ String.ofList (s.toList.flatMap escape) ++ "\""

/-- `fmt`'s `%T` of the `oneof` of an action. -/
def typeName : Option Action → String
  | none => "<nil>"
  | some (.join _) => "*models.CollabAction_Join"
  | some (.leave _) => "*models.CollabAction_Leave"
  | some (.presence _) => "*models.CollabAction_Presence"
  | some (.sceneUpdate _) => "*models.CollabAction_SceneUpdate"
  | some (.cursorUpdate _) => "*models.CollabAction_CursorUpdate"
  | some (.textUpdate _) => "*models.CollabAction_TextUpdate"
  | some .sceneInitRequest => "*models.CollabAction_SceneInitRequest"
  | some (.sceneInitResponse _) => "*models.CollabAction_SceneInitResponse"
  | some (.credentialsChanged _) => "*models.CollabAction_CredentialsChanged"
  | some (.titleChanged _) => "*models.CollabAction_TitleChanged"
  | some (.appMessage _) => "*models.CollabAction_AppMessage"

/-- Join and leave are never rate limited. -/
def isControl : Option Action → Bool
  | some (.join _) | some (.leave _) => true
  | _ => false

def isJoin : Option Action → Bool
  | some (.join _) => true
  | _ => false

def rateLimitedMessage (actionId limit : String) : String :=
  "Dropped action " ++ goQuote actionId ++ ": over " ++ limit ++ " messages/sec"

/-- `s.reply(event)`; `some` is the text of the error it returns. -/
def reply (i : Nat) (e : CollabEvent) : Proc (Option String) := do
  let queued ← perform i (.reply e)
  return if queued then none else some "context canceled"

/-- A reply that refuses an action. -/
def refuse (i : Nat) (code message : String) : Proc (Option String) := do
  let eventId ← Call.uuid.proc
  reply i (errorEvent eventId code message)

/-- Store the ids after a join and start forwarding room events. -/
def startBridge (i : Nat) (rj : RoomJoined) : Proc Unit := do
  perform i (.store rj)
  -- the session may have ended since the join was answered
  let found ← (Call.getClient rj.room.sessionId rj.clientId).proc
  Prog.onlyIf found (perform i (.goBridge rj.clientId))

/-- A join that was answered with `RoomJoined`. -/
def noteJoined (i : Nat) (joining : Bool) (e : CollabEvent) : Proc Unit :=
  match e.event with
  | .roomJoined rj => Prog.onlyIf joining (startBridge i rj)
  | _ => return

/-- What `Send` does with the answer of `HandleAction`. -/
def sendAnswer (i : Nat) (joining : Bool) : Answer → Proc (Option String)
  | .err message => return some message
  | .nothing => return none
  | .event e => do
    noteJoined i joining e
    reply i e

/-- `HandleAction` and its answer, in a `Send`. -/
def sendAction (cfg : StreamConfig) (i : Nat) (a : CollabAction) : Proc (Option String) := do
  let answer ← (Call.handleAction cfg.principal a).proc
  sendAnswer i (isJoin a.action) answer

/-- `Send` past the rate limiter: the sender is this connection's own client, and a
connection joins one room at a time. -/
def sendChecked (cfg : StreamConfig) (i : Nat) (a : CollabAction) : Proc (Option String) := do
  let joinedAs ← perform i .readClientId
  if isJoin a.action then
    if joinedAs ≠ "" then
      refuse i "ALREADY_JOINED"
        "This connection is already in a room; open another connection to join a second one"
    else sendAction cfg i a
  else if joinedAs = "" then return some (typeName a.action ++ " sent before joining a room")
  -- the sender is the client of the connection, whatever the action names
  else sendAction cfg i { a with clientId := joinedAs }

/-- `Send`; `some` is the text of the error it returns. -/
def send (cfg : StreamConfig) (i : Nat) (a : CollabAction) : Proc (Option String) :=
  match cfg.messageLimiter with
  | none => sendChecked cfg i a
  | some limit =>
    if isControl a.action then sendChecked cfg i a
    else do
      let allowed ← perform i .allow
      if allowed then sendChecked cfg i a
      else refuse i "RATE_LIMITED" (rateLimitedMessage a.actionId limit)

def leaveAndCleanup (i : Nat) (reason : String) : Proc Unit := do
  let (sessionId, clientId) ← perform i .clear
  -- only the first to clear the ids finds them
  if sessionId ≠ "" ∧ clientId ≠ "" then do
    let _ ← (Call.handleAction none { clientId, action := some (.leave ⟨reason⟩) }).proc
    return
  else return

def endSession (i : Nat) (reason : String) : Proc Unit := do
  let first ← perform i .onceEnter
  if first then do
    leaveAndCleanup i reason
    let eventId ← Call.uuid.proc
    let _ ← reply i { eventId, event := .sessionEnded reason }
    perform i .closeEnded
    perform i .onceExit
  else return

/-- `watchClose`, once the context is done. -/
def watchClose (cfg : StreamConfig) (i : Nat) : Proc Unit := do
  Prog.onlyIf cfg.expires (perform i .stopExpiry)
  leaveAndCleanup i "connection closed"

def closeSend (i : Nat) : Proc Unit := do
  leaveAndCleanup i "client closed"
  perform i .closeSendCh

end Stream

/-! ### The bridge -/

/-- The case a `select` of the bridge takes: the channel, the slow flag, or the
context. -/
inductive Choice
  | chan
  | slow
  | done
  deriving DecidableEq

namespace Relay

def setBridge (s : Relay) (i : Nat) (c : String) (b : Bridge) : Relay :=
  s.modifyStream i fun st => { st with bridges := Function.update st.bridges c b }

/-- The bridge takes the next event of its client, if there is one. -/
def takeFor (s : Relay) (c : String) : Option (Queued × Relay) :=
  (s.svc.take? c).map fun (q, svc) => (q, { s with svc })

/-- One step of the bridge of client `c` on stream `i`, with the program it comes to
when it ends the session. A receive from a closed and empty `SendCh` ends the loop. -/
def bridgeStep (s : Relay) (i : Nat) (c : String) :
    Bridge → Choice → Option (Relay × Option (Goroutine × Proc Unit))
  | .forwarding, .chan =>
    match s.takeFor c with
    | some (q, s) => some (s.setBridge i c (.holding q), none)
    | none => if (s.svc.clientAt c).sendCh.closed then some (s.setBridge i c .ended, none) else none
  | .holding q, .chan => (s.put? i (.room c q)).map fun s => (s.setBridge i c .forwarding, none)
  | .forwarding, .slow =>
    if (s.svc.clientAt c).slow then some (s.setBridge i c (.evicting none), none) else none
  | .holding q, .slow =>
    if (s.svc.clientAt c).slow then some (s.setBridge i c (.evicting (some q)), none) else none
  | .forwarding, .done | .holding _, .done =>
    if (s.streams i).cancelled then some (s.setBridge i c .ended, none) else none
  | .evicting none, .chan =>
    match s.takeFor c with
    | some (q, s) => some (s.setBridge i c (.evicting (some q)), none)
    -- the queue of the client is drained
    | none => some (s.setBridge i c .ending, none)
  | .evicting (some q), .chan =>
    match s.put? i (.room c q) with
    | some s => some (s.setBridge i c (.evicting none), none)
    -- the stream is full, and what is left is dropped
    | none => some (s.setBridge i c .ending, none)
  | .ending, .chan =>
    some (s.setBridge i c .ended, some (.bridge i c, Stream.endSession i "slow_consumer"))
  | _, _ => none

/-- `Recv` returns the next event. -/
def recv (s : Relay) (i : Nat) : Option Relay :=
  (s.streams i).sendCh.pop?.map fun (item, ch) =>
    s.modifyStream i fun st => { st with sendCh := ch, returned := st.returned ++ [item] }

end Relay

/-- What a call of `Recv` comes to: an event, `io.EOF`, or the error of the context. -/
inductive Received
  | event (item : Item)
  | eof
  | canceled

/-- What `Recv` can come to now. Its `select` takes any case that is ready; when that is
`ended`, it still returns an event that is queued. A drained and closed `sendCh` is
`io.EOF`. -/
def Stream.Receives (st : Stream) : Received → Prop
  | .event item => st.sendCh.buf.head? = some item
  | .eof => st.sendCh.buf = [] ∧ (st.sendCh.closed = true ∨ st.ended = true)
  | .canceled => st.cancelled = true

/-! ### Runs -/

/-- A call of an embedding server. -/
inductive DirectCall
  | handleAction (ctx : Ctx) (a : CollabAction)
  | deliverAppMessage (sessionId fromClientId : String) (msg : AppMessage)

def DirectCall.proc : DirectCall → Proc Unit
  | .handleAction ctx a => do
    let _ ← (Call.handleAction ctx a).proc
    return
  | .deliverAppMessage sessionId fromClientId msg => do
    let _ ← (Call.deliverAppMessage sessionId fromClientId msg).proc
    return

/-- What comes from outside. -/
inductive Launch
  | send (i : Nat) (a : CollabAction)
  | recv (i : Nat)
  | cancel (i : Nat)
  | watchClose (i : Nat)
  | expire (i : Nat)
  | closeSend (i k : Nat)
  | bridge (i : Nat) (c : String) (choice : Choice)
  | direct (k : Nat) (call : DirectCall)

/-- What a launch does to a running process, with the program it starts. -/
def Launch.apply (cfg : Nat → StreamConfig) :
    Launch → Relay → Option (Relay × Option (Goroutine × Proc Unit))
  | .send i a, s => some (s, some (.send i, do
      let _ ← Stream.send (cfg i) i a
      return))
  | .recv i, s => (s.recv i).map fun s => (s, none)
  | .cancel i, s => some (s.modifyStream i fun st => { st with cancelled := true }, none)
  | .watchClose i, s =>
    if (s.streams i).cancelled && !(s.streams i).watched then
      some (s.modifyStream i fun st => { st with watched := true },
        some (.watchClose i, Stream.watchClose (cfg i) i))
    else none
  | .expire i, s =>
    if (cfg i).expires && !(s.streams i).expiryFired && !(s.streams i).expiryStopped then
      some (s.modifyStream i fun st => { st with expiryFired := true },
        some (.expiry i, Stream.endSession i "token_expired"))
    else none
  | .closeSend i k, s => some (s, some (.closeSend i k, Stream.closeSend i))
  | .bridge i c choice, s => s.bridgeStep i c ((s.streams i).bridges c) choice
  | .direct k call, s => some (s, some (.direct k, call.proc))

def Launch.launch (cfg : Nat → StreamConfig) (m : Launch) (s : Relay) :
    Option (Relay × Option (Goroutine × Proc Unit)) :=
  if s.crashed then none else m.apply cfg s

/-- The goroutines at work on a relay. -/
abbrev System := Threads.Pool Relay Goroutine Op Op.Res

abbrev Move := Threads.Move Goroutine Launch

namespace System

/-- A relay that was just started: a new service, and streams that did nothing yet. -/
def init (maxPeers : Int) : System := ⟨{ svc := newCollabService maxPeers }, fun _ => none⟩

def step (u : UuidSource) (cfg : Nat → StreamConfig) : System → Move → Option System :=
  Threads.step (Op.exec u) (Launch.launch cfg)

/-- The system after a run, `none` if one of its moves was not enabled. -/
def run (u : UuidSource) (cfg : Nat → StreamConfig) (t : System) (moves : List Move) :
    Option System :=
  Machine.exec (step u cfg) t moves

end System

end MassRelay

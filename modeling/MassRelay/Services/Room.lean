import Mathlib.Data.Finset.Basic
import Mathlib.Data.List.AList
import MassRelay.Lib.Chan
import MassRelay.Services.Identity

/-!
# MassRelay.Services.Room

The relay's memory and the operations of `services/room.go` on it.

Go shares rooms and clients by pointer: a room stays reachable from a call that
looked it up after the service has forgotten it, and a client from its bridge
after the room has. So the state is a heap. A room pointer is a `RoomRef`, a
client pointer is the client's id (ids come from `uuid.New` and never repeat),
and `CollabService` holds the two heaps next to the maps of the Go struct.

A Go map ranges over its entries in an arbitrary order. Where that order can
show (`findByBrowserId`), the operation takes a number that picks among the
possible answers; the order of a broadcast cannot be seen in any one queue.

Some fields are **history variables** (those of `Queued` but the event, of
`CollabClient` from `creator` on, of `CollabService` from `sent` on): they record
how a state came about, and no operation reads them. A `deliver` call is known by
its number, which is its position in `sent`.
-/

namespace MassRelay

/-- The goroutines that enter the service. `send i` is the read loop of stream
`i`, which issues that connection's `Send` calls one after another; the next four
belong to a stream too, and `direct k` is a caller without one. -/
inductive Goroutine
  | send (i : Nat)
  | bridge (i : Nat) (clientId : String)
  | expiry (i : Nat)
  | watchClose (i : Nat)
  | closeSend (i k : Nat)
  | direct (k : Nat)
  deriving DecidableEq

/-- The stream a goroutine belongs to. -/
def Goroutine.stream? : Goroutine → Option Nat
  | .send i | .bridge i _ | .expiry i | .watchClose i | .closeSend i _ => some i
  | .direct _ => none

/-- An entry of a client's `SendCh`: the event, who put it there, and by which
`deliver` call. -/
structure Queued where
  event : CollabEvent
  sender : Goroutine
  call : Nat
  deriving DecidableEq

/-- `uuid.New().String()`: the ids it hands out, in order. -/
structure UuidSource where
  new : Nat → String
  new_injective : Function.Injective new
  new_ne_empty : ∀ n, new n ≠ ""

/-- Ids of growing length, for concrete runs. -/
def UuidSource.unary : UuidSource where
  new n := String.ofList (List.replicate (n + 1) 'u')
  new_injective m n h := by
    have := congrArg (fun s : String => s.toList.length) h
    simpa using this
  new_ne_empty n h := by
    have := congrArg (fun s : String => s.toList.length) h
    simp at this

/-- How far the join that made a client has come: it was added to the room, then its
`PeerJoined` goes out, then the join is answered. -/
inductive JoinProgress
  | added
  | announced
  | answered
  deriving DecidableEq

/-- A connected peer. -/
structure CollabClient where
  info : PeerInfo
  sessionId : String
  browserId : String
  sendCh : Go.Chan Queued 64
  slow : Bool
  /-- The goroutine whose join made this client. -/
  creator : Goroutine
  /-- The principal of the context that join was made with. -/
  principal : Ctx
  /-- The peers that join was told of. -/
  snapshot : List (String × PeerInfo)
  progress : JoinProgress := .added
  /-- What was put in `sendCh` so far, and what was taken out. -/
  enqueued : List Queued := []
  taken : List Queued := []

instance : Inhabited CollabClient where
  default :=
    { info := ⟨"", "", "", "", false, false, none, none⟩, sessionId := "", browserId := ""
      sendCh := .make, slow := false, creator := .direct 0, principal := none, snapshot := [] }

/-- A collaboration session. `clients` are the keys of the `Clients` map, and
`readers` the goroutines that hold `mu` for reading across several steps. -/
structure CollabRoom where
  sessionId : String
  clients : List String := []
  ownerClientId : String := ""
  ownerBrowserId : String := ""
  metadata : Metadata := none
  title : String := ""
  encrypted : Bool := false
  readers : Finset Goroutine := ∅

/-- A pointer to a `CollabRoom`. -/
abbrev RoomRef := Nat

/-- How often each metrics callback ran. -/
structure Metrics where
  onRoomCreated : Nat := 0
  onRoomRemoved : Nat := 0
  onPeerJoined : Nat := 0
  onPeerLeft : Nat := 0
  onMessageRelay : Nat := 0

/-- One `deliver` call: who made it, for which client, with which event. -/
structure Delivery where
  sender : Goroutine
  client : String
  event : CollabEvent
  deriving DecidableEq

/-- A `deliver` call that returned without queueing its event: for which client, and
how many calls had begun by then. -/
structure Missed where
  call : Nat
  client : String
  begun : Nat
  deriving DecidableEq

structure CollabService where
  rooms : AList fun _ : String => RoomRef := ∅
  hintIndex : String → Option String := fun _ => none
  maxPeersPerRoom : Int := 10
  protocolVersion : Int := 2
  metrics : Metrics := {}
  roomAt : RoomRef → CollabRoom := fun _ => { sessionId := "" }
  nextRoom : Nat := 0
  clientAt : String → CollabClient := fun _ => default
  nextUuid : Nat := 0
  /-- A send on a closed client channel, or closing one again, brought the process down. -/
  panicked : Bool := false
  /-- Every `deliver` call so far, in the order they began. -/
  sent : List Delivery := []
  /-- The `deliver` calls that dropped or skipped their event and returned. -/
  missed : List Missed := []
  /-- The client and the room of the action that a goroutine is carrying out. -/
  acting : Goroutine → Option (String × RoomRef) := fun _ => none

namespace CollabService

/-! ### Heap updates -/

def modifyRoom (s : CollabService) (r : RoomRef) (f : CollabRoom → CollabRoom) : CollabService :=
  { s with roomAt := Function.update s.roomAt r (f (s.roomAt r)) }

def modifyClient (s : CollabService) (c : String) (f : CollabClient → CollabClient) :
    CollabService :=
  { s with clientAt := Function.update s.clientAt c (f (s.clientAt c)) }

@[simp] theorem modifyRoom_roomAt_self (s : CollabService) (r : RoomRef)
    (f : CollabRoom → CollabRoom) : (s.modifyRoom r f).roomAt r = f (s.roomAt r) :=
  Function.update_self ..

@[simp] theorem modifyRoom_roomAt_of_ne (s : CollabService) {r r' : RoomRef}
    (f : CollabRoom → CollabRoom) (h : r' ≠ r) : (s.modifyRoom r f).roomAt r' = s.roomAt r' :=
  Function.update_of_ne h ..

@[simp] theorem modifyRoom_clientAt (s : CollabService) (r : RoomRef)
    (f : CollabRoom → CollabRoom) : (s.modifyRoom r f).clientAt = s.clientAt := rfl

@[simp] theorem modifyClient_clientAt_self (s : CollabService) (c : String)
    (f : CollabClient → CollabClient) : (s.modifyClient c f).clientAt c = f (s.clientAt c) :=
  Function.update_self ..

@[simp] theorem modifyClient_clientAt_of_ne (s : CollabService) {c c' : String}
    (f : CollabClient → CollabClient) (h : c' ≠ c) :
    (s.modifyClient c f).clientAt c' = s.clientAt c' :=
  Function.update_of_ne h ..

@[simp] theorem modifyClient_roomAt (s : CollabService) (c : String)
    (f : CollabClient → CollabClient) : (s.modifyClient c f).roomAt = s.roomAt := rfl

/-- The id the next `uuid.New` hands out; `tick` is the call that takes it. -/
def uuid (u : UuidSource) (s : CollabService) : String := u.new s.nextUuid

def tick (s : CollabService) : CollabService := { s with nextUuid := s.nextUuid + 1 }

/-! ### Room operations -/

/-- `close(c.SendCh)`. -/
def closeClient (s : CollabService) (c : String) : CollabService :=
  -- `close` of a closed channel panics
  if (s.clientAt c).sendCh.closed then { s with panicked := true }
  else s.modifyClient c fun cl => { cl with sendCh := cl.sendCh.close }

def closeAllClients (s : CollabService) (r : RoomRef) : CollabService :=
  ((s.roomAt r).clients.foldl closeClient s).modifyRoom r fun room => { room with clients := [] }

/-- The clients `FindByBrowserId` may return. -/
def sameBrowser (s : CollabService) (r : RoomRef) (browserId excludeClientId : String) :
    List String :=
  (s.roomAt r).clients.filter fun c =>
    (s.clientAt c).info.clientId ≠ excludeClientId ∧ (s.clientAt c).browserId = browserId

/-- Any client with the given browser ID, except `excludeClientId`. -/
def findByBrowserId (s : CollabService) (r : RoomRef) (browserId excludeClientId : String)
    (pick : Nat) : Option String :=
  let found := s.sameBrowser r browserId excludeClientId
  found[pick % found.length]?

def addClient (s : CollabService) (r : RoomRef) (client : CollabClient) : CollabService :=
  ({ s with clientAt := Function.update s.clientAt client.info.clientId client }).modifyRoom r
    fun room => { room with clients := room.clients.insert client.info.clientId }

def removeClient (s : CollabService) (r : RoomRef) (c : String) : CollabService :=
  s.modifyRoom r fun room => { room with clients := room.clients.erase c }

/-- The entries are pointers to the clients' own `PeerInfo`; here they are what those hold when the
map is made. `MassRelay.Services.PeerMaps` reads a map later. -/
def getPeerInfo (s : CollabService) (r : RoomRef) : List (String × PeerInfo) :=
  (s.roomAt r).clients.map fun c => (c, (s.clientAt c).info)

def isEmpty (s : CollabService) (r : RoomRef) : Bool := (s.roomAt r).clients.isEmpty

def clientCount (s : CollabService) (r : RoomRef) : Nat := (s.roomAt r).clients.length

/-- The join that made client `c` has come to the next stage. -/
def noteProgress (s : CollabService) (c : String) (progress : JoinProgress) : CollabService :=
  s.modifyClient c fun cl => { cl with progress }

/-! ### Delivery

`deliver` is three steps that other goroutines may come between: the call, with
its test of the slow flag, then the non-blocking put, and after a put that found
the queue full the flag. `deliver` here is the three in a row. -/

/-- A `deliver` call begins: its number, or `none` if it returns at once since the
client is slow. -/
def beginDeliver (s : CollabService) (g : Goroutine) (c : String) (e : CollabEvent) :
    CollabService × Option Nat :=
  let s' : CollabService := { s with sent := s.sent ++ [⟨g, c, e⟩] }
  -- the flag is never taken back
  if (s.clientAt c).slow then
    ({ s' with missed := s.missed ++ [⟨s.sent.length, c, s'.sent.length⟩] }, none)
  else (s', some s.sent.length)

/-- `case c.SendCh <- event:`; `none` when the queue is full. -/
def put? (s : CollabService) (g : Goroutine) (c : String) (e : CollabEvent) (call : Nat) :
    Option CollabService :=
  -- a send on a closed channel panics, with a `default` or without
  if (s.clientAt c).sendCh.closed then some { s with panicked := true }
  else
    ((s.clientAt c).sendCh.push? ⟨e, g, call⟩).map fun ch =>
      s.modifyClient c fun cl =>
        { cl with sendCh := ch, enqueued := cl.enqueued ++ [⟨e, g, call⟩] }

/-- The put found the queue full. -/
def markSlow (s : CollabService) (c : String) (call : Nat) : CollabService :=
  { s.modifyClient c fun cl => { cl with slow := true } with
    missed := s.missed ++ [⟨call, c, s.sent.length⟩] }

def deliver (g : Goroutine) (s : CollabService) (c : String) (e : CollabEvent) :
    CollabService :=
  match s.beginDeliver g c e with
  | (s, none) => s
  | (s, some call) => (s.put? g c e call).getD (s.markSlow c call)

/-- Deliver each event to its client, in order. -/
def deliverAll (g : Goroutine) (s : CollabService) (targets : List (String × CollabEvent)) :
    CollabService :=
  targets.foldl (fun s t => s.deliver g t.1 t.2) s

/-- Whom `BroadcastExcept` delivers to. -/
def exceptTargets (s : CollabService) (r : RoomRef) (exceptClientId : String) : List String :=
  (s.roomAt r).clients.filter fun c => (s.clientAt c).info.clientId ≠ exceptClientId

/-- The loop of `SendEach`: whom it delivers to and which ids it reports missing.
`seen` holds the ids met so far. -/
def eachLoop (s : CollabService) (r : RoomRef) : List String → List String →
    List String × List String
  | [], _ => ([], [])
  | id :: ids, seen =>
    -- an id that is named twice is served once
    if id ∈ seen then s.eachLoop r ids seen
    else
      let (targets, missing) := s.eachLoop r ids (id :: seen)
      if id ∈ (s.roomAt r).clients then (id :: targets, missing) else (targets, id :: missing)

def broadcastToAll (g : Goroutine) (s : CollabService) (r : RoomRef) (e : CollabEvent) :
    CollabService :=
  s.deliverAll g ((s.roomAt r).clients.map (·, e))

def broadcastExcept (g : Goroutine) (s : CollabService) (r : RoomRef) (e : CollabEvent)
    (exceptClientId : String) : CollabService :=
  s.deliverAll g ((s.exceptTargets r exceptClientId).map (·, e))

def sendEach (g : Goroutine) (s : CollabService) (r : RoomRef) (clientIds : List String)
    (build : String → CollabEvent) : CollabService × List String :=
  let (targets, missing) := s.eachLoop r clientIds []
  (s.deliverAll g (targets.map fun id => (id, build id)), missing)

/-- `<-c.SendCh` by whoever drains the client's queue; `none` when it is empty. -/
def take? (s : CollabService) (c : String) : Option (Queued × CollabService) :=
  (s.clientAt c).sendCh.pop?.map fun (q, ch) =>
    (q, s.modifyClient c fun cl => { cl with sendCh := ch, taken := cl.taken ++ [q] })

/-! ### What a delivery does -/

section Delivery

variable {s s' : CollabService} {g : Goroutine} {c : String} {e : CollabEvent} {k : Nat}

/-- Inverting a put that did not find the queue full. -/
theorem put?_eq_some (h : s.put? g c e k = some s') :
    ((s.clientAt c).sendCh.closed = true ∧ s' = { s with panicked := true }) ∨
    ∃ ch, (s.clientAt c).sendCh.push? ⟨e, g, k⟩ = some ch ∧ s' = s.modifyClient c fun cl =>
      { cl with sendCh := ch, enqueued := cl.enqueued ++ [⟨e, g, k⟩] } := by
  unfold put? at h
  split at h
  · rename_i hclosed
    exact Or.inl ⟨hclosed, (Option.some.inj h).symm⟩
  · obtain ⟨ch, hpush, rfl⟩ := Option.map_eq_some_iff.mp h
    exact Or.inr ⟨ch, hpush, rfl⟩

/-- Inverting a take. -/
theorem take?_eq_some {q : Queued} (h : s.take? c = some (q, s')) :
    ∃ ch, (s.clientAt c).sendCh.pop? = some (q, ch) ∧ s' = s.modifyClient c fun cl =>
      { cl with sendCh := ch, taken := cl.taken ++ [q] } := by
  obtain ⟨⟨q', ch⟩, hpop, heq⟩ := Option.map_eq_some_iff.mp h
  obtain ⟨rfl, rfl⟩ := Prod.mk.inj heq
  exact ⟨ch, hpop, rfl⟩

/-- The rule of a delivery: what its three steps keep. -/
theorem deliver_rule {I : CollabService → Prop} (hbegin : I (s.beginDeliver g c e).1)
    (hput : ∀ {s₁ s₂ k}, s₁.put? g c e k = some s₂ → I s₁ → I s₂)
    (hslow : ∀ {s₁ k}, I s₁ → I (s₁.markSlow c k)) : I (s.deliver g c e) := by
  unfold deliver
  split
  · rename_i s₁ h
    rwa [h] at hbegin
  · rename_i s₁ call h
    rw [h] at hbegin
    cases hp : s₁.put? g c e call with
    | none => exact hslow hbegin
    | some s₂ => exact hput hp hbegin

theorem deliverAll_rule {I : CollabService → Prop} {targets : List (String × CollabEvent)}
    (hdeliver : ∀ {s₁ c e}, I s₁ → I (s₁.deliver g c e)) (hs : I s) :
    I (s.deliverAll g targets) :=
  List.foldlRecOn targets _ hs fun _ h _ _ => hdeliver h

theorem closeClients_rule {I : CollabService → Prop} {cs : List String}
    (hpanic : ∀ {s₁}, I s₁ → I { s₁ with panicked := true })
    (hclose : ∀ {s₁} c, I s₁ →
      I (s₁.modifyClient c fun cl => { cl with sendCh := cl.sendCh.close }))
    (hs : I s) : I (cs.foldl closeClient s) := by
  refine List.foldlRecOn cs _ hs fun s₁ h c _ => ?_
  unfold closeClient
  split
  · exact hpanic h
  · exact hclose c h

end Delivery

/-! ### The history of deliveries -/

theorem beginDeliver_sent (s : CollabService) (g : Goroutine) (c : String) (e : CollabEvent) :
    (s.beginDeliver g c e).1.sent = s.sent ++ [⟨g, c, e⟩] := by
  unfold beginDeliver
  dsimp only
  split <;> rfl

theorem put?_sent {s s' : CollabService} {g : Goroutine} {c : String} {e : CollabEvent} {k : Nat}
    (h : s.put? g c e k = some s') : s'.sent = s.sent := by
  rcases put?_eq_some h with ⟨-, rfl⟩ | ⟨ch, -, rfl⟩ <;> rfl

/-- Every `deliver` call is on record, whatever became of its event. -/
theorem deliver_sent (g : Goroutine) (s : CollabService) (c : String) (e : CollabEvent) :
    (s.deliver g c e).sent = s.sent ++ [⟨g, c, e⟩] :=
  deliver_rule (I := fun s' => s'.sent = s.sent ++ [⟨g, c, e⟩]) (beginDeliver_sent s g c e)
    (fun hput h => (put?_sent hput).trans h) id

theorem deliverAll_sent (g : Goroutine) (s : CollabService)
    (targets : List (String × CollabEvent)) :
    (s.deliverAll g targets).sent = s.sent ++ targets.map fun t => ⟨g, t.1, t.2⟩ := by
  unfold deliverAll
  induction targets generalizing s with
  | nil => simp
  | cons t targets ih =>
    rw [List.foldl_cons, ih, deliver_sent]
    simp

theorem closeClients_sent (s : CollabService) (cs : List String) :
    (cs.foldl closeClient s).sent = s.sent :=
  closeClients_rule (I := fun s' => s'.sent = s.sent) id (fun _ h => h) rfl

end CollabService

end MassRelay

import MassRelay.Services.Traffic

/-!
# MassRelay.Services.FanOut

Who gets what a client sends to its room.

`findRoomForClient` goes through the rooms in the order of a Go map, so what it finds is
only determined because nobody is in two rooms. Then `BroadcastExcept` reaches each other
client of that room once (`FannedOut`), and touches nothing else but the room's flag and
title.
-/

namespace MassRelay

/-- The event that the other clients of a room get for an action without addressees. -/
def Action.fanOut : Action → Option Event
  | .presence p => some (.presence p)
  | .sceneUpdate su => some (.sceneUpdate su)
  | .cursorUpdate cu => some (.cursorUpdate cu)
  | .textUpdate tu => some (.textUpdate tu)
  | .sceneInitRequest => some .sceneInitRequest
  | .sceneInitResponse sr => some (.sceneInitResponse sr)
  | .credentialsChanged cc => some (.credentialsChanged cc)
  | .titleChanged tc => some (.titleChanged tc)
  | .appMessage am => if am.toClientIds = [] then some (.appMessage am) else none
  | .join _ | .leave _ => none

namespace CollabService

variable {u : UuidSource} {s : CollabService} {g : Goroutine} {ctx : Ctx} {r : RoomRef}
variable {x : String} {action : Action} {event : Event}

/-- An event of client `x` reached the other clients of room `r`, and nothing else happened
to a queue or to another room. -/
structure FannedOut (s s' : CollabService) (r : RoomRef) (x : String) (event : Event) : Prop where
  /-- A client with a free slot gets one entry more, at the end. -/
  queued : ∀ c ∈ (s.roomAt r).clients, c ≠ x → (s.clientAt c).slow = false →
    (s.clientAt c).sendCh.buf.length < 64 →
    (s'.clientAt c).slow = false ∧ ∃ q : Queued,
      (s'.clientAt c).sendCh.buf = (s.clientAt c).sendCh.buf ++ [q] ∧
      q.event.event = event ∧ q.event.fromClientId = x
  /-- A client with a full queue is slow from now on. -/
  overflowed : ∀ c ∈ (s.roomAt r).clients, c ≠ x → (s.clientAt c).slow = false →
    (s.clientAt c).sendCh.buf.length = 64 →
    (s'.clientAt c).slow = true ∧ (s'.clientAt c).sendCh = (s.clientAt c).sendCh
  skipped : ∀ c ∈ (s.roomAt r).clients, c ≠ x → (s.clientAt c).slow = true →
    s'.clientAt c = s.clientAt c
  others : ∀ c, c = x ∨ c ∉ (s.roomAt r).clients → s'.clientAt c = s.clientAt c
  rooms : s'.rooms = s.rooms
  clients : (s'.roomAt r).clients = (s.roomAt r).clients
  otherRooms : ∀ r', r' ≠ r → s'.roomAt r' = s.roomAt r'

/-- A broadcast, whatever room `r` notes of the action before and is counted after. -/
theorem FannedOut.of_broadcast (s₁ : CollabService) {s' : CollabService} {eventId : String}
    (hwf : RoomsWF u s) (hopen : ChansOpen s) (hclients₁ : s₁.clientAt = s.clientAt)
    (hsame : SameRooms s s₁)
    (hother₁ : ∀ r', r' ≠ r → s₁.roomAt r' = s.roomAt r')
    (hclients : s'.clientAt = (s₁.broadcastExcept g r ⟨eventId, x, event⟩ x).clientAt)
    (hroomAt : s'.roomAt = s₁.roomAt) (hrooms : s'.rooms = s₁.rooms) :
    FannedOut s s' r x event := by
  have hwf₁ := hwf.of_sameRooms hsame
  have hopen₁ := hopen.sameRooms hsame hclients₁
  have hdelivered : ∀ c ∈ (s.roomAt r).clients, c ≠ x →
      Delivered (s.clientAt c) (s'.clientAt c) ⟨eventId, x, event⟩ := by
    intro c hc hx
    rw [hclients, ← hclients₁]
    exact broadcastExcept_client g hwf₁ hopen₁ (by rwa [hsame.clients]) hx
  constructor
  · intro c hc hx hslow hfree
    cases hdelivered c hc hx with
    | skipped hslow' _ => simp [hslow] at hslow'
    | queued q ch _ _ hevent hbuf h =>
      rw [h]
      exact ⟨hslow, q, hbuf, by rw [hevent], by rw [hevent]⟩
    | overflowed _ hfull _ => omega
  · intro c hc hx hslow hfull
    cases hdelivered c hc hx with
    | skipped hslow' _ => simp [hslow] at hslow'
    | queued q ch _ hfree _ _ _ => omega
    | overflowed _ _ h => rw [h]; exact ⟨rfl, rfl⟩
  · intro c hc hx hslow
    cases hdelivered c hc hx with
    | skipped _ h => exact h
    | queued q ch hslow' _ _ _ _ => simp [hslow] at hslow'
    | overflowed hslow' _ _ => simp [hslow] at hslow'
  · intro c hc
    rw [hclients, ← hclients₁]
    refine broadcastExcept_client_of_not g hwf₁ _ ?_
    rw [hsame.clients]
    rintro ⟨hmem, hx⟩
    exact hc.elim hx fun h => h hmem
  · rw [hrooms, hsame.rooms]
  · rw [hroomAt, hsame.clients]
  · intro r' hr
    rw [hroomAt, hother₁ r' hr]

theorem noteRelayed_roomAt_of_ne (s : CollabService) (action : Action) {r' : RoomRef}
    (h : r' ≠ r) : (s.noteRelayed r action).roomAt r' = s.roomAt r' := by
  unfold noteRelayed
  split
  · split
    · exact modifyRoom_roomAt_of_ne s _ h
    · rfl
  · exact modifyRoom_roomAt_of_ne s _ h
  · rfl

theorem noteRelayed_clientAt (s : CollabService) (r : RoomRef) (action : Action) :
    (s.noteRelayed r action).clientAt = s.clientAt := by
  unfold noteRelayed
  split
  · split <;> rfl
  · rfl
  · rfl

/-- An unaddressed broadcast, in the terms of its handler. -/
theorem handleBroadcast_fanOut (hfind : s.findRoomForClient x = some r)
    (hrelayed : relayed action = some event) (haddressed : addressed? action = none) :
    s.handleBroadcast u g x action =
      (((s.tick.noteRelayed r action).broadcastExcept g r ⟨s.uuid u, x, event⟩ x).countRelay,
        .nothing) := by
  unfold handleBroadcast
  rw [hfind]
  dsimp only
  rw [hrelayed]
  dsimp only
  rw [haddressed]

/-- What a client of room `r` sends to it reaches the others. -/
theorem handleAction_fannedOut (hwf : RoomsWF u s) (hopen : ChansOpen s) (actionId : String)
    (pick : Nat) (hfind : s.findRoomForClient x = some r) (hevent : action.fanOut = some event) :
    FannedOut s (s.handleAction u g ctx ⟨actionId, x, some action⟩ pick).1 r x event ∧
      (s.handleAction u g ctx ⟨actionId, x, some action⟩ pick).2 = .nothing := by
  have hbroadcast : relayed action = some event → addressed? action = none →
      FannedOut s (s.handleBroadcast u g x action).1 r x event ∧
        (s.handleBroadcast u g x action).2 = .nothing := by
    intro hrelayed haddressed
    rw [handleBroadcast_fanOut hfind hrelayed haddressed]
    refine ⟨FannedOut.of_broadcast (s.tick.noteRelayed r action) hwf hopen
      (noteRelayed_clientAt s.tick r action)
      ((SameRooms.tick s).trans (SameRooms.noteRelayed s.tick r action))
      (fun r' hr => noteRelayed_roomAt_of_ne s.tick action hr) rfl ?_ ?_, rfl⟩
    · exact (SendsOnly.deliverAll g _ _).roomAt
    · exact (SendsOnly.deliverAll g _ _).rooms
  cases action with
  | join _ | leave _ => simp [Action.fanOut] at hevent
  | presence p =>
    obtain rfl := Option.some.inj hevent
    simp only [handleAction, handlePresence, hfind]
    refine ⟨FannedOut.of_broadcast s.tick hwf hopen rfl (SameRooms.tick s)
      (fun _ _ => rfl) rfl ?_ ?_, trivial⟩
    · exact (SendsOnly.deliverAll g _ _).roomAt
    · exact (SendsOnly.deliverAll g _ _).rooms
  | appMessage msg =>
    simp only [Action.fanOut] at hevent
    split at hevent
    · rename_i hall
      exact hbroadcast hevent (by simp [addressed?, hall])
    · simp at hevent
  | _ => exact hbroadcast hevent rfl

/-- In every run nobody is in two rooms, and an unaddressed action reaches the other clients
of the sender's room and nothing else; without a room it changes nothing. -/
theorem fanOut_exact (u : UuidSource) (maxPeers : Int) (reqs : List Request) :
    let s := serveAll u (newCollabService maxPeers) reqs
    (∀ sid sid' r r' c, s.getRoomByID sid = some r → s.getRoomByID sid' = some r' →
      c ∈ (s.roomAt r).clients → c ∈ (s.roomAt r').clients → sid = sid' ∧ r = r') ∧
    ∀ g ctx actionId x action pick event, action.fanOut = some event →
      (∀ sid r, s.getRoomByID sid = some r → x ∈ (s.roomAt r).clients →
        FannedOut s (s.handleAction u g ctx ⟨actionId, x, some action⟩ pick).1 r x event ∧
        (s.handleAction u g ctx ⟨actionId, x, some action⟩ pick).2 = .nothing) ∧
      ((∀ sid r, s.getRoomByID sid = some r → x ∉ (s.roomAt r).clients) →
        s.handleAction u g ctx ⟨actionId, x, some action⟩ pick =
          (s, .err (notFoundMessage x))) := by
  intro s
  have hwf : RoomsWF u s := (RoomInv.serveAll maxPeers reqs).wf
  have hopen : ChansOpen s := .serveAll maxPeers reqs
  refine ⟨?_, ?_⟩
  · intro sid sid' r r' c hr hr' hc hc'
    obtain rfl := hwf.room_unique hc hc'
    exact ⟨(hwf.sid_unique hr' hr), rfl⟩
  intro g ctx actionId x action pick event hevent
  refine ⟨?_, ?_⟩
  · intro sid r hr hx
    obtain ⟨r', hfind⟩ := findRoomForClient_isSome hr hx
    obtain rfl := hwf.room_unique hx (findRoomForClient_eq_some hfind).2
    exact handleAction_fannedOut hwf hopen actionId pick hfind hevent
  · intro hnone
    have hfind : s.findRoomForClient x = none := by
      cases hfind : s.findRoomForClient x with
      | none => rfl
      | some r =>
        obtain ⟨⟨sid, hr⟩, hx⟩ := findRoomForClient_eq_some hfind
        exact absurd hx (hnone sid r hr)
    have hbroadcast : ∀ action, s.handleBroadcast u g x action = (s, .err (notFoundMessage x)) :=
      fun _ => handleBroadcast_none hfind
    cases action with
    | join _ | leave _ => simp [Action.fanOut] at hevent
    | presence p => simp only [handleAction, handlePresence, hfind]
    | _ => simp only [handleAction, hbroadcast]

/-- A cursor of the second client of a room reaches the first. -/
theorem fanOut_exact_cursor :
    let s := serveAll .unary (newCollabService 10) [joinS1 true "b1", joinS1 false "b2"]
    FannedOut s (s.handleAction .unary (.direct 0) none
      ⟨"", "uuuu", some (.cursorUpdate ⟨0, 0, "pen", "up", []⟩)⟩ 0).1 0 "uuuu"
      (.cursorUpdate ⟨0, 0, "pen", "up", []⟩) :=
  (((fanOut_exact .unary 10 [joinS1 true "b1", joinS1 false "b2"]).2 (.direct 0) none "" "uuuu"
    (.cursorUpdate ⟨0, 0, "pen", "up", []⟩) 0 _ rfl).1 "s1" 0 (by decide) (by decide)).1

end CollabService

end MassRelay

import MassRelay.Services.FanOut
import MassRelay.Services.Handlers

/-!
# MassRelay.Services.RoomHistory

A room as its clients are to see it, and what can happen to it.

Every client keeps a copy of its room: who is in it, who owns it, its title, whether it is
encrypted (`RoomView`). A `Happening` changes the room (`apply`) and tells each client that
was there something about it (`told`). `serve_happens` is the refinement: what a request
does to a room of the relay is one of the happenings that can come of the request
(`Happens`), with the view changed as it says and the queues of the clients that keep up
longer by what it tells them. Whether the clients' copies stay right is then a matter of
`apply` and `told` alone.
-/

namespace MassRelay

/-- What the clients of a room are to agree on. -/
structure RoomView where
  clients : List String
  ownerClientId : String
  title : String
  encrypted : Bool

def CollabRoom.view (room : CollabRoom) : RoomView :=
  ⟨room.clients, room.ownerClientId, room.title, room.encrypted⟩

/-- What can happen to a room. -/
inductive Happening
  /-- Nothing but messages that an application sends. -/
  | messages (told : String → List AppMessage)
  /-- An action of client `x` is relayed. -/
  | relayed (x : String) (action : Action)
  /-- An owner declares the room encrypted in a join that is then refused. -/
  | declared
  | joined (peer : PeerInfo) (join : JoinRoom)
  | left (x reason : String)
  /-- The owner leaves, and a tab of its browser takes over. -/
  | moved (x reason successor : String)
  /-- The owner leaves, and the session ends. -/
  | ended (x : String)

namespace Happening

/-- The room after it happened. -/
def apply : Happening → RoomView → RoomView
  | .messages _, v => v
  | .relayed _ (.credentialsChanged cc), v =>
    { v with encrypted := if cc.reason = "password_removed" then false else v.encrypted }
  | .relayed _ (.titleChanged tc), v => { v with title := tc.title }
  | .relayed _ _, v => v
  | .declared, v => { v with encrypted := true }
  | .joined peer join, v =>
    { clients := v.clients.insert peer.clientId
      ownerClientId := if join.isOwner then peer.clientId else v.ownerClientId
      title := if v.title = "" then join.title else v.title
      encrypted := (join.isOwner && join.encrypted) || v.encrypted }
  | .left x _, v => { v with clients := v.clients.erase x }
  | .moved x _ successor, v =>
    { v with clients := v.clients.erase x, ownerClientId := successor }
  | .ended _, v => { v with clients := [] }

/-- What client `c` of the room is told. -/
def told (h : Happening) (v : RoomView) (c : String) : List Event :=
  match h with
  | .messages told => (told c).map .appMessage
  | .relayed x action => if c = x then [] else action.fanOut.toList
  | .declared => []
  | .joined peer _ => [.peerJoined peer]
  | .left x reason =>
    if c = x then [] else [.peerLeft ⟨x, reason, (v.clients.erase x).length⟩]
  | .moved x reason successor =>
    if c = x then []
    else [.ownerChanged successor, .peerLeft ⟨x, reason, (v.clients.erase x).length⟩]
  | .ended x => if c = x then [] else [.sessionEnded "owner_disconnected"]

end Happening

namespace CollabService

variable {u : UuidSource} {s s' s'' : CollabService} {g : Goroutine} {ctx : Ctx} {join : JoinRoom}
variable {r : RoomRef} {x : String} {sid : String}

def view (s : CollabService) (r : RoomRef) : RoomView := (s.roomAt r).view

theorem TrafficOnly.view (h : TrafficOnly s s') (r : RoomRef) : s'.view r = s.view r := by
  rw [CollabService.view, h.roomAt, CollabService.view]

/-- A join whose room lets it through to the encryption check, and declares it encrypted. -/
def declares (s : CollabService) (join : JoinRoom) (r : RoomRef) : Bool :=
  join.isOwner && join.encrypted && !s.isFull r && !s.ownedElsewhere r join.browserId

/-- What a request can make happen to room `r`. -/
inductive Happens (u : UuidSource) (s : CollabService) (r : RoomRef) : Request → Happening → Prop
  | messages (req : Request) (told : String → List AppMessage) :
      Happens u s r req (.messages told)
  | relayed (g : Goroutine) (ctx : Ctx) (actionId x : String) (action : Action) (pick : Nat)
      (event : Event) (hfind : s.findRoomForClient x = some r)
      (hevent : action.fanOut = some event) :
      Happens u s r (.handle g ctx ⟨actionId, x, some action⟩ pick) (.relayed x action)
  | declared (g : Goroutine) (ctx : Ctx) (actionId clientId : String) (join : JoinRoom)
      (pick : Nat) (hallows : allowsRoom ctx join.sessionId = true)
      (hr : s.getRoomByID (s.joinTarget u join) = some r) (hrefuse : s.refuses join r = true)
      (hdeclares : s.declares join r = true) :
      Happens u s r (.handle g ctx ⟨actionId, clientId, some (.join join)⟩ pick) .declared
  | joined (g : Goroutine) (ctx : Ctx) (actionId clientId : String) (join : JoinRoom) (pick : Nat)
      (peer : PeerInfo) (hallows : allowsRoom ctx join.sessionId = true)
      (hr : s.getRoomByID (s.joinTarget u join) = some r) (haccept : s.refuses join r = false)
      (hpeer : peer.clientId ∉ (s.roomAt r).clients) (hne : peer.clientId ≠ "") :
      Happens u s r (.handle g ctx ⟨actionId, clientId, some (.join join)⟩ pick)
        (.joined peer join)
  | left (g : Goroutine) (ctx : Ctx) (actionId x : String) (leave : LeaveRoom) (pick : Nat)
      (hfind : s.findRoomForClient x = some r) :
      Happens u s r (.handle g ctx ⟨actionId, x, some (.leave leave)⟩ pick)
        (.left x leave.reason)
  | moved (g : Goroutine) (ctx : Ctx) (actionId x : String) (leave : LeaveRoom) (pick : Nat)
      (successor : String) (hfind : s.findRoomForClient x = some r) :
      Happens u s r (.handle g ctx ⟨actionId, x, some (.leave leave)⟩ pick)
        (.moved x leave.reason successor)
  | ended (g : Goroutine) (ctx : Ctx) (actionId x : String) (leave : LeaveRoom) (pick : Nat)
      (hfind : s.findRoomForClient x = some r) :
      Happens u s r (.handle g ctx ⟨actionId, x, some (.leave leave)⟩ pick) (.ended x)

/-- The step from `s` to `s'` does to room `r` and its clients what `h` says. -/
structure Happened (s s' : CollabService) (r : RoomRef) (h : Happening) : Prop where
  view : s'.view r = h.apply (s.view r)
  hears : ∀ c ∈ (s.roomAt r).clients, Hears s s' c (h.told (s.view r) c)

/-- And it does nothing to the other rooms there are, and to anyone else. -/
structure Does (u : UuidSource) (s s' : CollabService) (r : RoomRef) (h : Happening) : Prop
    extends Happened s s' r h where
  otherRooms : ∀ r' < s.nextRoom, r' ≠ r → s'.view r' = s.view r'
  others : ∀ c, Issued u s c → c ∉ (s.roomAt r).clients → Hears s s' c []

/-- Nothing happens to the rooms there are, and to the clients. -/
structure Quiet (u : UuidSource) (s s' : CollabService) : Prop where
  view : ∀ r < s.nextRoom, s'.view r = s.view r
  hears : ∀ c, Issued u s c → Hears s s' c []

theorem Quiet.of_same (hroomAt : ∀ r < s.nextRoom, s'.roomAt r = s.roomAt r)
    (hclients : s'.clientAt = s.clientAt) : Quiet u s s' where
  view r hr := by rw [CollabService.view, hroomAt r hr, CollabService.view]
  hears c _ := (SameQueue.of_client (by rw [hclients])).hears

theorem Quiet.happened (hwf : RoomsWF u s) (h : Quiet u s s') (hr : r < s.nextRoom) :
    Happened s s' r (.messages fun _ => []) where
  view := h.view r hr
  hears c hc := h.hears c (hwf.member hc).2.2

/-- To a room it is not about, a happening is nothing. -/
theorem Does.elsewhere {h : Happening} {r' : RoomRef} (hwf : RoomsWF u s) (hd : Does u s s' r h)
    (hr' : r' < s.nextRoom) (hne : r' ≠ r) : Happened s s' r' (.messages fun _ => []) where
  view := hd.otherRooms r' hr' hne
  hears c hc := hd.others c (hwf.member hc).2.2 fun hc' => hne (hwf.room_unique hc hc')

/-- The queues of a room's clients tell who it is that hears something. -/
theorem Does.of_hears {h : Happening} {heard : String → List Event} (hwf : RoomsWF u s)
    (hhears : ∀ c, Issued u s c → Hears s s' c (heard c))
    (htold : ∀ c ∈ (s.roomAt r).clients, h.told (s.view r) c = heard c)
    (hnone : ∀ c ∉ (s.roomAt r).clients, heard c = [])
    (hview : s'.view r = h.apply (s.view r))
    (hother : ∀ r' < s.nextRoom, r' ≠ r → s'.view r' = s.view r') : Does u s s' r h where
  view := hview
  hears c hc := by
    rw [htold c hc]
    exact hhears c (hwf.member hc).2.2
  otherRooms := hother
  others c hc hnot := by
    rw [← hnone c hnot]
    exact hhears c hc

/-- A round of deliveries to clients of room `r`, with steps before and after it that do not
come near a queue. -/
theorem Does.of_send {h : Happening} {s₁ : CollabService} {ids : List String}
    (build : String → CollabEvent) (hwf : RoomsWF u s)
    (hpre : ∀ c, Issued u s c → SameQueue s s₁ c) (hnodup : ids.Nodup)
    (hopen : ∀ c ∈ ids, (s₁.clientAt c).sendCh.closed = false)
    (hpost : ∀ c, Issued u s c →
      SameQueue (s₁.deliverAll g (ids.map fun id => (id, build id))) s' c)
    (hids : ∀ c ∈ ids, c ∈ (s.roomAt r).clients)
    (htold : ∀ c ∈ (s.roomAt r).clients,
      h.told (s.view r) c = if c ∈ ids then [(build c).event] else [])
    (hview : s'.view r = h.apply (s.view r))
    (hother : ∀ r' < s.nextRoom, r' ≠ r → s'.view r' = s.view r') : Does u s s' r h := by
  refine .of_hears hwf (fun c hc => ?_) htold (fun c hc => if_neg fun h => hc (hids c h)) hview
    hother
  exact (Hears.after (hpre c hc) (deliverAll_hears g build hnodup hopen c)).still
    (hpost c hc).hears

/-- A broadcast to everyone but client `x`. -/
theorem Does.of_broadcastExcept {h : Happening} {e : CollabEvent} (s₁ : CollabService)
    (hwf : RoomsWF u s) (hopen : ChansOpen s) (hsame : SameRooms s s₁)
    (hclients : s₁.clientAt = s.clientAt)
    (hpost : s'.clientAt = (s₁.broadcastExcept g r e x).clientAt) (hroomAt : s'.roomAt = s₁.roomAt)
    (htold : ∀ c ∈ (s.roomAt r).clients,
      h.told (s.view r) c = if c = x then [] else [e.event])
    (hview : s₁.view r = h.apply (s.view r))
    (hother : ∀ r', r' ≠ r → s₁.roomAt r' = s.roomAt r') : Does u s s' r h := by
  have hwf₁ := hwf.of_sameRooms hsame
  have hmem : ∀ c, c ∈ s₁.exceptTargets r x ↔ c ∈ (s.roomAt r).clients ∧ c ≠ x := by
    intro c
    rw [hwf₁.mem_exceptTargets, hsame.clients]
  have hnodup : (s₁.exceptTargets r x).Nodup := (hwf₁.nodup r).filter _
  refine Does.of_send (fun _ => e) hwf (fun c _ => .of_client (by rw [hclients])) hnodup ?_
    (fun c _ => .of_client (congrFun hpost c)) (fun c hc => ((hmem c).mp hc).1) ?_ ?_ ?_
  · intro c hc
    exact hopen.sameRooms hsame hclients r c (hwf₁.mem_exceptTargets.mp hc).1
  · intro c hc
    rw [htold c hc]
    by_cases hx : c = x
    · rw [if_pos hx, if_neg fun h => ((hmem c).mp h).2 hx]
    · rw [if_neg hx, if_pos ((hmem c).mpr ⟨hc, hx⟩)]
  · rw [view, hroomAt, ← hview, view]
  · intro r' _ hr'
    rw [view, hroomAt, hother r' hr', view]

/-! ### Relaying -/

theorem noteRelayed_view (s : CollabService) (r : RoomRef) (x : String) (action : Action) :
    (s.noteRelayed r action).view r = (Happening.relayed x action).apply (s.view r) := by
  cases action with
  | credentialsChanged cc =>
    simp only [noteRelayed, Happening.apply]
    split
    · simp [view, CollabRoom.view]
    · rfl
  | titleChanged tc => simp [noteRelayed, Happening.apply, view, CollabRoom.view]
  | _ => rfl

/-- What a client sends to its room reaches the others. -/
theorem fanOut_does {event : Event} {action : Action} (hwf : RoomsWF u s) (hopen : ChansOpen s)
    (hfind : s.findRoomForClient x = some r) (hevent : action.fanOut = some event)
    (hrelayed : relayed action = some event) (haddressed : addressed? action = none) :
    Does u s (s.handleBroadcast u g x action).1 r (.relayed x action) := by
  rw [handleBroadcast_fanOut hfind hrelayed haddressed]
  refine Does.of_broadcastExcept (s.tick.noteRelayed r action) hwf hopen
    ((SameRooms.tick s).trans (SameRooms.noteRelayed s.tick r action))
    (noteRelayed_clientAt s.tick r action) rfl ?_ ?_ ?_ ?_
  · exact (SendsOnly.deliverAll g _ _).roomAt
  · intro c _
    simp only [Happening.told, hevent, Option.toList_some]
  · rw [noteRelayed_view s.tick r x action]
    rfl
  · exact fun r' hr' => noteRelayed_roomAt_of_ne s.tick action hr'

theorem presence_does {p : PresenceUpdate} (hwf : RoomsWF u s) (hopen : ChansOpen s)
    (hfind : s.findRoomForClient x = some r) :
    Does u s (s.handlePresence u g x p).1 r (.relayed x (.presence p)) := by
  simp only [handlePresence, hfind]
  refine Does.of_broadcastExcept s.tick hwf hopen (SameRooms.tick s) rfl rfl ?_ ?_ rfl
    fun _ _ => rfl
  · exact (SendsOnly.deliverAll g _ _).roomAt
  · intro c _
    simp only [Happening.told, Action.fanOut, Option.toList_some]

/-- The copies of an addressed message go to the receivers it names. -/
theorem addressed_does {s₁ : CollabService} {eventId fromClientId : String} {msg : AppMessage}
    (hwf : RoomsWF u s) (hopen : ChansOpen s) (hsame : SameRooms s s₁)
    (hclients : s₁.clientAt = s.clientAt) (hroomAt₁ : s₁.roomAt = s.roomAt)
    (hpost : s'.clientAt = (s₁.deliverAddressed g r eventId fromClientId msg).1.clientAt)
    (hroomAt : s'.roomAt = s₁.roomAt) : ∃ told, Does u s s' r (.messages told) := by
  refine ⟨fun c => if c ∈ (s₁.eachLoop r msg.toClientIds []).1 then
    [{ msg with toClientIds := [c] }] else [], ?_⟩
  have hmem : ∀ c ∈ (s₁.eachLoop r msg.toClientIds []).1, c ∈ (s.roomAt r).clients := by
    intro c hc
    rw [← hsame.clients]
    exact (mem_eachLoop.mp hc).2.2
  refine Does.of_send (addressedEvent eventId fromClientId msg) hwf
    (fun c _ => .of_client (by rw [hclients])) (eachLoop_nodup s₁ r msg.toClientIds [])
    (fun c hc => by rw [hclients]; exact hopen r c (hmem c hc))
    (fun c _ => .of_client (congrFun hpost c)) hmem ?_ ?_ ?_
  · intro c _
    simp only [Happening.told]
    split <;> rfl
  · rw [view, hroomAt, hroomAt₁]
    rfl
  · intro r' _ _
    rw [view, hroomAt, hroomAt₁, view]

/-- An addressed broadcast, in the terms of its handler. -/
theorem handleBroadcast_addressed {action : Action} {event : Event} {msg : AppMessage}
    (hfind : s.findRoomForClient x = some r) (hrelayed : relayed action = some event)
    (haddressed : addressed? action = some msg) :
    (s.handleBroadcast u g x action).1.clientAt =
        ((s.tick.noteRelayed r action).deliverAddressed g r (s.uuid u) x msg).1.clientAt ∧
      (s.handleBroadcast u g x action).1.roomAt = (s.tick.noteRelayed r action).roomAt := by
  have hrooms : ((s.tick.noteRelayed r action).deliverAddressed g r (s.uuid u) x msg).1.roomAt =
      (s.tick.noteRelayed r action).roomAt := (SendsOnly.deliverAll g _ _).roomAt
  unfold handleBroadcast
  rw [hfind]
  dsimp only
  rw [hrelayed]
  dsimp only
  rw [haddressed]
  dsimp only
  split
  · exact ⟨rfl, hrooms⟩
  · exact ⟨rfl, hrooms⟩

/-- Whatever a client has its room told. -/
theorem handleBroadcast_happens {action : Action} (hwf : RoomsWF u s) (hopen : ChansOpen s)
    (hfind : s.findRoomForClient x = some r) (hrelayed : relayed action ≠ none) :
    ∃ h, (∀ ctx actionId pick, Happens u s r (.handle g ctx ⟨actionId, x, some action⟩ pick) h) ∧
      Does u s (s.handleBroadcast u g x action).1 r h := by
  cases haddressed : addressed? action with
  | none =>
    obtain ⟨event, hevent⟩ := Option.ne_none_iff_exists'.mp hrelayed
    have hfan : action.fanOut = some event := by
      cases action with
      | join _ | leave _ | presence _ => simp [relayed] at hevent
      | appMessage msg =>
        have hall : msg.toClientIds = [] := by simpa [addressed?] using haddressed
        rwa [Action.fanOut, if_pos hall]
      | _ => exact hevent
    exact ⟨_, fun ctx actionId pick => .relayed g ctx actionId x action pick event hfind hfan,
      fanOut_does hwf hopen hfind hfan hevent haddressed⟩
  | some msg =>
    obtain ⟨event, hevent⟩ := Option.ne_none_iff_exists'.mp hrelayed
    obtain ⟨hclients, hrooms⟩ := handleBroadcast_addressed (u := u) (g := g) hfind hevent haddressed
    have hnote : s.tick.noteRelayed r action = s.tick := by
      cases action <;> first | rfl | simp [addressed?] at haddressed
    rw [hnote] at hclients hrooms
    obtain ⟨told, hdoes⟩ := addressed_does hwf hopen (SameRooms.tick s) rfl rfl hclients hrooms
    exact ⟨_, fun ctx actionId pick => .messages _ told, hdoes⟩

theorem deliverAppMessage_does (msg : AppMessage) (hwf : RoomsWF u s) (hopen : ChansOpen s)
    (hr : s.getRoomByID sid = some r) :
    ∃ told, Does u s (s.deliverAppMessage u g sid x msg).1 r (.messages told) := by
  unfold deliverAppMessage
  rw [hr]
  dsimp only
  split
  · refine ⟨fun c => if c = x then [] else [msg], ?_⟩
    refine Does.of_broadcastExcept s.tick hwf hopen (SameRooms.tick s) rfl rfl ?_ ?_ rfl
      fun _ _ => rfl
    · exact (SendsOnly.deliverAll g _ _).roomAt
    · intro c _
      simp only [Happening.told]
      split <;> rfl
  · exact addressed_does hwf hopen (SameRooms.tick s) rfl rfl rfl
      (SendsOnly.deliverAll g _ _).roomAt

/-! ### Joining -/

section Join

variable {u : UuidSource}

theorem declareEncrypted_roomAt (s : CollabService) (r : RoomRef) (join : JoinRoom) :
    (s.declareEncrypted r join).roomAt = Function.update s.roomAt r
      { s.roomAt r with
        encrypted := (join.isOwner && join.encrypted) || (s.roomAt r).encrypted } := by
  unfold declareEncrypted
  split
  · rename_i h
    simp [modifyRoom, h]
  · rename_i h
    simp only [Bool.eq_false_of_not_eq_true h, Bool.false_or, Function.update_eq_self]

/-- What the checks of a join do to its room. -/
theorem checked_roomAt (s : CollabService) (join : JoinRoom) (r : RoomRef) :
    (s.checked join r).roomAt = Function.update s.roomAt r
      { s.roomAt r with encrypted := s.declares join r || (s.roomAt r).encrypted } := by
  have hsame : Function.update s.roomAt r
      { s.roomAt r with encrypted := false || (s.roomAt r).encrypted } = s.roomAt := by
    rw [Bool.false_or, Function.update_eq_self]
  unfold checked
  split
  · rename_i h
    have hnot : s.declares join r = false := by
      cases hfull : s.isFull r with
      | true => simp [declares, hfull]
      | false =>
        rw [hfull, Bool.false_or, Bool.and_eq_true] at h
        simp [declares, h.2]
    rw [hnot, hsame]
  · rename_i h
    rw [declareEncrypted_roomAt]
    simp only [Bool.or_eq_true, not_or, Bool.not_eq_true, Bool.and_eq_false_imp] at h
    cases howner : join.isOwner with
    | false => simp [declares, howner]
    | true => simp [declares, howner, h.1, h.2 howner]

theorem enterRoom_refused_fields (g : Goroutine) (ctx : Ctx) (sid : String)
    (hrefuse : s.refuses join r = true) :
    (s.enterRoom u g ctx join sid r).1.clientAt = s.clientAt ∧
    (s.enterRoom u g ctx join sid r).1.roomAt = Function.update s.roomAt r
      { s.roomAt r with encrypted := s.declares join r || (s.roomAt r).encrypted } := by
  have hroom := checked_roomAt s join r
  have hclient := checked_clientAt s r join
  rcases enterRoom_refused_eq hrefuse with heq | heq
  · rw [heq]
    exact ⟨hclient, hroom⟩
  · rw [heq]
    exact ⟨hclient, hroom⟩

theorem atLookup_declares (s : CollabService) (r : RoomRef) :
    (s.atLookup u join).declares join r = s.declares join r := by
  obtain ⟨hints, n, h⟩ := atLookup_eq u join s
  rw [h]
  rfl

/-- A join that its room turns away declares it encrypted at most. -/
theorem turnedAway_does (g : Goroutine) (ctx : Ctx) (sid : String)
    (hrefuse : s.refuses join r = true) :
    Does u s ((s.atLookup u join).enterRoom u g ctx join sid r).1 r
      (if s.declares join r then .declared else .messages fun _ => []) := by
  obtain ⟨hclient, hroom⟩ := enterRoom_refused_fields (u := u) g ctx sid
    ((atLookup_refuses (u := u) s r).trans hrefuse)
  rw [atLookup_clientAt] at hclient
  rw [atLookup_roomAt, atLookup_declares] at hroom
  have hhears : ∀ c, Hears s ((s.atLookup u join).enterRoom u g ctx join sid r).1 c [] :=
    fun c => (SameQueue.of_client (congrFun hclient c)).hears
  refine ⟨⟨?_, fun c _ => ?_⟩, fun r' _ hr' => ?_, fun c _ _ => hhears c⟩
  · rw [view, hroom, Function.update_self]
    cases s.declares join r <;> rfl
  · cases s.declares join r <;> exact hhears c
  · rw [view, hroom, Function.update_of_ne hr', view]

theorem enrolled_view_self (s : CollabService) :
    (s.enrolled u g ctx join sid r).view r =
      { clients := (s.roomAt r).clients.insert (s.uuid u)
        ownerClientId := if join.isOwner then s.uuid u else (s.roomAt r).ownerClientId
        title := if (s.roomAt r).title = "" then join.title else (s.roomAt r).title
        encrypted := (s.roomAt r).encrypted } := by
  rw [view, enrolled_roomAt_self]
  rfl

/-- The info that a join makes for its client. -/
def joinInfo (u : UuidSource) (s : CollabService) (g : Goroutine) (ctx : Ctx) (join : JoinRoom) :
    PeerInfo :=
  (newClient g ctx join "" (s.uuid u) []).info

/-- What the rest of an accepted join sends: the clients before it hear of the new one. -/
theorem accept_sent {c : String} (g : Goroutine) (ctx : Ctx) (join : JoinRoom)
    (hwf : RoomsWF u s) (hopen : ChansOpen s)
    (hr : s.getRoomByID sid = some r) :
    Hears (s.enrolled u g ctx join sid r) (s.accept u g ctx join sid r).1 c
      (if c ∈ (s.roomAt r).clients then [.peerJoined (s.joinInfo u g ctx join)] else []) := by
  have hwf₁ : RoomsWF u (s.enrolled u g ctx join sid r) := hwf.enrolled hr
  have hopen₁ : ChansOpen (s.enrolled u g ctx join sid r) := hopen.enrolled
  have hsend : SendsOnly (s.enrolled u g ctx join sid r)
      ((s.enrolled u g ctx join sid r).tick.noteProgress (s.uuid u) .announced) :=
    (SendsOnly.tick _).trans (.noteProgress _ _ _)
  have hsent := broadcastExcept_hears g (hwf₁.of_sameRooms hsend.sameRooms) (hopen₁.sendsOnly hsend)
    r ((s.enrolled u g ctx join sid r).peerJoinedEvent ((s.enrolled u g ctx join sid r).uuid u)
      (s.uuid u)) (s.uuid u) c
  have hmem : (c ∈ (((s.enrolled u g ctx join sid r).tick.noteProgress (s.uuid u)
      .announced).roomAt r).clients ∧ c ≠ s.uuid u) ↔ c ∈ (s.roomAt r).clients := by
    rw [hsend.roomAt, enrolled_roomAt_self, List.mem_insert_iff]
    exact ⟨fun h => h.1.resolve_left h.2, fun h => ⟨Or.inr h, fun hc => hwf.uuid_notMem r (hc ▸ h)⟩⟩
  have hevent : ((s.enrolled u g ctx join sid r).peerJoinedEvent
      ((s.enrolled u g ctx join sid r).uuid u) (s.uuid u)).event =
      .peerJoined (s.joinInfo u g ctx join) := by
    simp only [peerJoinedEvent, enrolled_clientAt, Function.update_self]
    rfl
  simp only [hmem, hevent] at hsent
  have hbefore : ∀ s₂ : CollabService,
      SameQueue s₂ (s₂.tick.noteProgress (s.uuid u) .announced) c :=
    fun s₂ => (SameQueue.tick s₂ c).trans (.noteProgress s₂.tick _ _ _)
  have hafter : ∀ s₂ : CollabService, Hears s₂ (s₂.tick.noteProgress (s.uuid u) .answered) c [] :=
    fun s₂ => ((SameQueue.tick s₂ c).trans (.noteProgress s₂.tick _ _ _)).hears
  exact (Hears.after (hbefore _) hsent).still (hafter _)

theorem accept_hears {c : String} (g : Goroutine) (ctx : Ctx) (join : JoinRoom)
    (hwf : RoomsWF u s) (hopen : ChansOpen s)
    (hr : s.getRoomByID sid = some r) (hc : Issued u s c) :
    Hears s (s.accept u g ctx join sid r).1 c
      (if c ∈ (s.roomAt r).clients then [.peerJoined (s.joinInfo u g ctx join)] else []) := by
  refine Hears.after (.of_client ?_) (accept_sent g ctx join hwf hopen hr)
  rw [enrolled_clientAt, Function.update_of_ne hc.ne_uuid]

/-- What an accepted join does to a room there is. -/
theorem joined_does (hwf : RoomsWF u s) (hopen : ChansOpen s)
    (hr : s.getRoomByID sid = some r) :
    ∃ peer, peer.clientId ∉ (s.roomAt r).clients ∧ peer.clientId ≠ "" ∧
      Does u s (((s.atLookup u join).declareEncrypted r join).accept u g ctx join sid r).1 r
        (.joined peer join) := by
  have hlook := SameRooms.atLookup (u := u) s join
  have hsame : SameRooms s ((s.atLookup u join).declareEncrypted r join) :=
    hlook.trans (SameRooms.declareEncrypted _ r join)
  have hclients : ((s.atLookup u join).declareEncrypted r join).clientAt = s.clientAt := by
    rw [declareEncrypted_clientAt, atLookup_clientAt]
  have hroomAt : ((s.atLookup u join).declareEncrypted r join).roomAt = Function.update s.roomAt r
      { s.roomAt r with
        encrypted := (join.isOwner && join.encrypted) || (s.roomAt r).encrypted } := by
    rw [declareEncrypted_roomAt, atLookup_roomAt]
  generalize (s.atLookup u join).declareEncrypted r join = s₁ at hsame hclients hroomAt
  refine ⟨s₁.joinInfo u g ctx join, ?_, u.new_ne_empty _, ?_⟩
  · rw [← hsame.clients]
    exact (hwf.of_sameRooms hsame).uuid_notMem r
  have hhears : ∀ c, Issued u s c → Hears s (s₁.accept u g ctx join sid r).1 c
      (if c ∈ (s.roomAt r).clients then [.peerJoined (s₁.joinInfo u g ctx join)] else []) := by
    intro c hc
    have hsent := accept_hears g ctx join (hwf.of_sameRooms hsame)
      (hopen.sameRooms hsame hclients) ((hsame.getRoomByID sid).trans hr) (hc.mono hsame.nextUuid)
    rw [hsame.clients] at hsent
    exact Hears.after (.of_client (congrFun hclients c)) hsent
  refine Does.of_hears hwf hhears (fun c hc => (if_pos hc).symm) (fun c hc => if_neg hc) ?_ ?_
  · rw [view, accept_sendsOnly.roomAt, ← view, enrolled_view_self, hroomAt, Function.update_self]
    rfl
  · intro r' _ hr'
    rw [view, accept_sendsOnly.roomAt, enrolled_roomAt_of_ne s₁ hr', hroomAt,
      Function.update_of_ne hr', view]

/-- A join that creates its room is nothing to the other rooms. -/
theorem created_quiet (hs : RoomInv u s) (hopen : ChansOpen s)
    (hr : s.getRoomByID (s.joinTarget u join) = none) :
    Quiet u s (((s.atCreated u join).declareEncrypted s.nextRoom join).accept u g ctx join
      (s.joinTarget u join) s.nextRoom).1 := by
  obtain ⟨-, hreg, hroom, hclient⟩ := atCreated_eq hr
  have hopen₁ := (hopen.atCreated hr).sameRooms
    (.declareEncrypted (s.atCreated u join) s.nextRoom join)
    (declareEncrypted_clientAt (s.atCreated u join) s.nextRoom join)
  have hsame := SameRooms.declareEncrypted (s.atCreated u join) s.nextRoom join
  have hwf₁ := ((hs.atCreated join).of_sameRooms hsame).wf
  have hreg₁ := (hsame.getRoomByID (s.joinTarget u join)).trans (hreg (s.joinTarget u join))
  rw [if_pos rfl] at hreg₁
  have hroomAt : ∀ r' < s.nextRoom,
      ((s.atCreated u join).declareEncrypted s.nextRoom join).roomAt r' = s.roomAt r' := by
    intro r' hr'
    rw [declareEncrypted_roomAt, Function.update_of_ne hr'.ne, hroom, Function.update_of_ne hr'.ne]
  have hclients : ((s.atCreated u join).declareEncrypted s.nextRoom join).clientAt =
      s.clientAt := by
    rw [declareEncrypted_clientAt, hclient]
  have hempty : (((s.atCreated u join).declareEncrypted s.nextRoom join).roomAt
      s.nextRoom).clients = [] := by
    rw [hsame.clients, hroom, Function.update_self]
  have hnext := (atCreated_nextUuid (u := u) s join).trans hsame.nextUuid
  generalize (s.atCreated u join).declareEncrypted s.nextRoom join = s₁ at *
  refine ⟨fun r' hr' => ?_, fun c hc => ?_⟩
  · rw [view, accept_sendsOnly.roomAt, enrolled_roomAt_of_ne s₁ hr'.ne, hroomAt r' hr', view]
  · have hsent := accept_hears g ctx join hwf₁ hopen₁ hreg₁ (hc.mono hnext)
    rw [hempty, if_neg List.not_mem_nil] at hsent
    exact Hears.after (.of_client (congrFun hclients c)) hsent

theorem createdRefused_quiet (hr : s.getRoomByID (s.joinTarget u join) = none)
    (hrefuse : (s.atCreated u join).refuses join s.nextRoom = true) :
    Quiet u s ((s.atCreated u join).enterRoom u g ctx join (s.joinTarget u join)
      s.nextRoom).1 := by
  obtain ⟨-, -, hroom, hclient⟩ := atCreated_eq hr
  obtain ⟨hclients, hroomAt⟩ := enterRoom_refused_fields (u := u) g ctx
    (s.joinTarget u join) hrefuse
  refine .of_same (fun r' hr' => ?_) (hclients.trans hclient)
  rw [hroomAt, Function.update_of_ne hr'.ne, hroom, Function.update_of_ne hr'.ne]

theorem handleJoin_joined (g : Goroutine) (hwf : RoomsWF u s) (hopen : ChansOpen s)
    (hallows : allowsRoom ctx join.sessionId = true)
    (hr : s.getRoomByID (s.joinTarget u join) = some r) (haccept : s.refuses join r = false) :
    ∃ peer, peer.clientId ∉ (s.roomAt r).clients ∧ peer.clientId ≠ "" ∧
      Does u s (s.handleJoin u g ctx join).1 r (.joined peer join) := by
  rw [handleJoin_accepted hallows hr haccept]
  exact joined_does hwf hopen hr

theorem handleJoin_declared (g : Goroutine) (hallows : allowsRoom ctx join.sessionId = true)
    (hr : s.getRoomByID (s.joinTarget u join) = some r) (hrefuse : s.refuses join r = true)
    (hdeclares : s.declares join r = true) :
    Does u s (s.handleJoin u g ctx join).1 r .declared := by
  have hdoes := turnedAway_does (u := u) g ctx (s.joinTarget u join) hrefuse
  rw [if_pos hdeclares] at hdoes
  rcases handleJoin_allowed (u := u) (s := s) (g := g) hallows with
    ⟨hr', -⟩ | ⟨r', hr', heq⟩ | ⟨hr', -⟩
  · simp [hr] at hr'
  · obtain rfl := Option.some.inj (hr.symm.trans hr')
    rwa [heq]
  · simp [hr] at hr'

/-- What a join does to the rooms there are. -/
theorem handleJoin_happens (g : Goroutine) (ctx : Ctx) (join : JoinRoom) (hs : RoomInv u s)
    (hopen : ChansOpen s) :
    Quiet u s (s.handleJoin u g ctx join).1 ∨ ∃ r sid h, s.getRoomByID sid = some r ∧
      (∀ actionId clientId pick, Happens u s r
        (.handle g ctx ⟨actionId, clientId, some (.join join)⟩ pick) h) ∧
      Does u s (s.handleJoin u g ctx join).1 r h := by
  have hcase := handleJoin_case (u := u) s g ctx join
  generalize s.handleJoin u g ctx join = result at hcase ⊢
  cases hcase with
  | forbidden _ _ _ => exact Or.inl (.of_same (fun _ _ => rfl) rfl)
  | lost _ _ _ _ =>
    refine Or.inl (.of_same (fun r' _ => ?_) ?_)
    · exact congrFun (atLookup_roomAt s join) r'
    · exact atLookup_clientAt s join
  | turnedAway r hallows hr hrefuse =>
    have hdoes := turnedAway_does (u := u) g ctx (s.joinTarget u join) hrefuse
    refine Or.inr ⟨r, _, _, hr, fun actionId clientId pick => ?_, hdoes⟩
    cases hdeclares : s.declares join r with
    | true => exact .declared g ctx actionId clientId join pick hallows hr hrefuse hdeclares
    | false => exact .messages _ _
  | joined r hallows hr haccept =>
    obtain ⟨peer, hpeer, hne, hdoes⟩ := joined_does hs.wf hopen hr
    exact Or.inr ⟨r, _, _, hr, fun actionId clientId pick =>
      .joined g ctx actionId clientId join pick peer hallows hr haccept hpeer hne, hdoes⟩
  | createdRefused _ hr _ hrefuse => exact Or.inl (createdRefused_quiet hr hrefuse)
  | created _ hr _ _ => exact Or.inl (created_quiet hs hopen hr)

end Join

/-! ### Leaving -/

theorem SameQueue.removeRoom (s : CollabService) (sid c : String) :
    SameQueue s (s.removeRoom sid) c := .of_client (congrFun (removeRoom_clientAt s sid) c)

theorem SameQueue.closeAllClients (s : CollabService) (r : RoomRef) (c : String) :
    SameQueue s (s.closeAllClients r) c :=
  SameQueue.trans (SameQueue.closeClients s (s.roomAt r).clients c)
    (by unfold CollabService.closeAllClients; exact .of_client rfl)

theorem announceLeft_roomAt {reason : String} {n : Nat} :
    (s.announceLeft u g x reason r n).1.roomAt = s.roomAt := by
  have hsent := broadcastToAll_roomAt g s.tick r (peerLeftEvent (s.uuid u) x reason n)
  unfold announceLeft
  dsimp only
  split
  · exact (removeRoom_roomAt _ _).trans hsent
  · exact hsent

theorem announceLeft_hears {c : String} (reason : String) (n : Nat) (hwf : RoomsWF u s)
    (hopen : ChansOpen s) :
    Hears s (s.announceLeft u g x reason r n).1 c
      (if c ∈ (s.roomAt r).clients then [.peerLeft ⟨x, reason, n⟩] else []) := by
  have htick := SendsOnly.tick s
  have hsent := Hears.after (SameQueue.tick s c) (broadcastToAll_hears g
    (hwf.of_sameRooms htick.sameRooms) (hopen.sendsOnly htick) r
    (peerLeftEvent (s.uuid u) x reason n) c)
  unfold announceLeft
  dsimp only
  split
  · exact hsent.still ((SameQueue.removeRoom _ _ c).trans (.tick _ c)).hears
  · exact hsent.still (SameQueue.tick _ c).hears

theorem endRoom_view (s : CollabService) :
    (s.endRoom u g x r).1.view r = { s.view r with clients := [] } ∧
      ∀ r', r' ≠ r → (s.endRoom u g x r).1.view r' = s.view r' := by
  have hsent := broadcastToAll_roomAt g s.tick r (ownerDisconnectedEvent (s.uuid u) x)
  unfold endRoom
  dsimp only
  generalize s.tick.broadcastToAll g r (ownerDisconnectedEvent (s.uuid u) x) = s₁ at hsent
  have hroomAt : ((s₁.closeAllClients r).removeRoom
      ((s₁.closeAllClients r).roomAt r).sessionId).tick.roomAt =
      Function.update s.roomAt r { s.roomAt r with clients := [] } := by
    refine (removeRoom_roomAt _ _).trans ?_
    rw [closeAllClients, modifyRoom, closeClients_roomAt, hsent]
    rfl
  refine ⟨?_, fun r' hr' => ?_⟩
  · rw [view, hroomAt, Function.update_self]
    rfl
  · rw [view, hroomAt, Function.update_of_ne hr', view]

theorem endRoom_hears {c : String} (hwf : RoomsWF u s) (hopen : ChansOpen s) :
    Hears s (s.endRoom u g x r).1 c
      (if c ∈ (s.roomAt r).clients then [.sessionEnded "owner_disconnected"] else []) := by
  have htick := SendsOnly.tick s
  have hsent := Hears.after (SameQueue.tick s c) (broadcastToAll_hears g
    (hwf.of_sameRooms htick.sameRooms) (hopen.sendsOnly htick) r
    (ownerDisconnectedEvent (s.uuid u) x) c)
  unfold endRoom
  dsimp only
  exact hsent.still (((SameQueue.closeAllClients _ r c).trans (.removeRoom _ _ c)).trans
    (.tick _ c)).hears

theorem transferOwner_view (s : CollabService) (successor : String) :
    (s.transferOwner r successor).view r =
        { s.view r with ownerClientId := (s.clientAt successor).info.clientId } ∧
      ∀ r', r' ≠ r → (s.transferOwner r successor).view r' = s.view r' := by
  refine ⟨?_, fun r' hr' => ?_⟩
  · rw [view, transferOwner_roomAt_self]
    rfl
  · rw [view, transferOwner_roomAt_of_ne s _ hr', view]

/-- The room follows its owner, and everyone in it hears of that before the old owner is
announced as gone. -/
theorem moveOwner_hears {successor c : String} (reason : String) (n : Nat) (hwf : RoomsWF u s)
    (hopen : ChansOpen s) (hsucc : successor ∈ (s.roomAt r).clients) :
    let moved := (s.transferOwner r successor).tick.broadcastToAll g r
      ((s.transferOwner r successor).ownerChangedEvent ((s.transferOwner r successor).uuid u) x
        successor)
    (moved.announceLeft u g x reason r n).1.roomAt = (s.transferOwner r successor).roomAt ∧
      Hears s (moved.announceLeft u g x reason r n).1 c
        (if c ∈ (s.roomAt r).clients then [.ownerChanged successor, .peerLeft ⟨x, reason, n⟩]
          else []) := by
  intro moved
  have htick := SendsOnly.tick (s.transferOwner r successor)
  have hwf₁ : RoomsWF u (s.transferOwner r successor) := hwf.transferOwner successor
  have hopen₁ : ChansOpen (s.transferOwner r successor) := hopen.transferOwner successor
  have hqueue : SameQueue s (s.transferOwner r successor) c := by
    by_cases hc : c = successor
    · rw [hc]
      constructor <;> rw [transferOwner_clientAt_self]
    · exact .of_client (transferOwner_clientAt_of_ne s hc)
  have hevent : ((s.transferOwner r successor).ownerChangedEvent
      ((s.transferOwner r successor).uuid u) x successor).event = .ownerChanged successor := by
    rw [ownerChangedEvent, (transferOwner_client s successor successor).1, (hwf.member hsucc).1]
  have hsend : SendsOnly (s.transferOwner r successor) moved := htick.trans (.deliverAll g _ _)
  have hclients : (moved.roomAt r).clients = (s.roomAt r).clients := by
    rw [hsend.roomAt, (transferOwner_clients s successor r).1]
  -- the transfer goes out in a broadcast of its own, before the departure
  have htold : Hears s moved c
      (if c ∈ (s.roomAt r).clients then [.ownerChanged successor] else []) := by
    have hsent := broadcastToAll_hears g (hwf₁.of_sameRooms htick.sameRooms)
      (hopen₁.sendsOnly htick) r ((s.transferOwner r successor).ownerChangedEvent
        ((s.transferOwner r successor).uuid u) x successor) c
    rw [show ((s.transferOwner r successor).tick.roomAt r).clients = (s.roomAt r).clients from
      (transferOwner_clients s successor r).1, hevent] at hsent
    exact Hears.after (hqueue.trans (.tick _ c)) hsent
  have hleft := announceLeft_hears (g := g) (r := r) (x := x) (c := c) reason n
    (hwf₁.of_sameRooms hsend.sameRooms) (hopen₁.sendsOnly hsend)
  rw [hclients] at hleft
  refine ⟨announceLeft_roomAt.trans hsend.roomAt, ?_⟩
  by_cases hc : c ∈ (s.roomAt r).clients
  · rw [if_pos hc] at htold hleft ⊢
    exact htold.trans hleft
  · rw [if_neg hc] at htold hleft ⊢
    exact htold.still hleft

/-- What a leave does to its room. -/
theorem handleLeave_happens (leave : LeaveRoom) (pick : Nat) (hwf : RoomsWF u s)
    (hopen : ChansOpen s) (hfind : s.findRoomForClient x = some r) :
    ∃ h, (∀ ctx actionId, Happens u s r
        (.handle g ctx ⟨actionId, x, some (.leave leave)⟩ pick) h) ∧
      Does u s (s.handleLeave u g x leave pick).1 r h := by
  have hwf₁ : RoomsWF u (s.removeLeft r x) := hwf.removeLeft
  have hopen₁ : ChansOpen (s.removeLeft r x) := hopen.removeLeft
  have hqueue : ∀ c, SameQueue s (s.removeLeft r x) c := fun c => .of_client rfl
  have hview : (s.removeLeft r x).view r =
      { s.view r with clients := (s.roomAt r).clients.erase x } := by
    rw [view, removeLeft_roomAt_self]
    rfl
  have hother : ∀ r', r' ≠ r → (s.removeLeft r x).view r' = s.view r' := by
    intro r' hr'
    rw [view, removeLeft_roomAt_of_ne s hr', view]
  have hmem : ∀ c, c ∈ ((s.removeLeft r x).roomAt r).clients ↔
      c ∈ (s.roomAt r).clients ∧ c ≠ x := by
    intro c
    rw [removeLeft_roomAt_self, (hwf.nodup r).mem_erase_iff, and_comm]
  -- a remaining client, and anyone else
  have hstays : ∀ {c} {es : List Event}, c ∈ (s.roomAt r).clients →
      (if c ∈ ((s.removeLeft r x).roomAt r).clients then es else []) =
        if c = x then [] else es := by
    intro c es hc
    by_cases hx : c = x <;> simp [hmem, hc, hx]
  have hgone : ∀ {c} {es : List Event}, c ∉ (s.roomAt r).clients →
      (if c ∈ ((s.removeLeft r x).roomAt r).clients then es else []) = [] := by
    intro c es hc
    exact if_neg fun h => hc ((hmem c).mp h).1
  cases handleLeave_cases (u := u) (g := g) leave pick hfind with
  | plain _ heq =>
    refine ⟨.left x leave.reason, fun ctx actionId => .left g ctx actionId x leave pick hfind, ?_⟩
    rw [heq]
    refine Does.of_hears hwf
      (fun c _ => Hears.after (hqueue c) (announceLeft_hears _ _ hwf₁ hopen₁))
      (fun c hc => ?_) (fun c hc => hgone hc) ?_ ?_
    · rw [hstays hc, removeLeft_clientCount]
      rfl
    · rw [view, announceLeft_roomAt, ← view, hview]
      rfl
    · intro r' _ hr'
      rw [view, announceLeft_roomAt, ← view, hother r' hr']
  | ended _ _ _ _ heq =>
    refine ⟨.ended x, fun ctx actionId => .ended g ctx actionId x leave pick hfind, ?_⟩
    rw [heq]
    refine Does.of_hears hwf (fun c _ => Hears.after (hqueue c) (endRoom_hears hwf₁ hopen₁))
      (fun c hc => ?_) (fun c hc => hgone hc) ?_ ?_
    · rw [hstays hc]
      rfl
    · rw [(endRoom_view _).1, hview]
      rfl
    · intro r' _ hr'
      rw [(endRoom_view _).2 r' hr', hother r' hr']
  | moved pick' successor _ _ hsucc heq =>
    refine ⟨.moved x leave.reason successor,
      fun ctx actionId => .moved g ctx actionId x leave pick successor hfind, ?_⟩
    rw [heq]
    have hmoved := fun c => moveOwner_hears (g := g) (x := x) (c := c) leave.reason
      ((s.removeLeft r x).clientCount r) hwf₁ hopen₁ (findSuccessor_eq_some hsucc).2.1
    have hid : ((s.removeLeft r x).clientAt successor).info.clientId = successor :=
      (hwf₁.member (findSuccessor_eq_some hsucc).2.1).1
    have hroomAt := (hmoved "").1
    refine Does.of_hears hwf (fun c _ => Hears.after (hqueue c) (hmoved c).2)
      (fun c hc => ?_) (fun c hc => hgone hc) ?_ ?_
    · rw [hstays hc, removeLeft_clientCount]
      rfl
    · rw [view, hroomAt, ← view, (transferOwner_view _ successor).1, hview, hid]
      rfl
    · intro r' _ hr'
      rw [view, hroomAt, ← view, (transferOwner_view _ successor).2 r' hr', hother r' hr']

/-! ### One request -/

/-- What a request does to the rooms there are: nothing, or one thing to one of them. -/
theorem serve_cases (hs : RoomInv u s) (hopen : ChansOpen s) (req : Request) :
    Quiet u s (s.serve u req) ∨ ∃ r sid h, s.getRoomByID sid = some r ∧ Happens u s r req h ∧
      Does u s (s.serve u req) r h := by
  have hsame : Quiet u s s := .of_same (fun _ _ => rfl) rfl
  cases req with
  | receive c =>
    refine Or.inl ⟨fun r _ => ?_, fun c' _ => receive_hears s c c'⟩
    exact (SendsOnly.receive s c).view r
  | deliverAppMessage g sid c msg =>
    simp only [serve]
    cases hr : s.getRoomByID sid with
    | none =>
      unfold deliverAppMessage
      rw [hr]
      exact Or.inl hsame
    | some r =>
      obtain ⟨told, hdoes⟩ := deliverAppMessage_does (u := u) (g := g) (x := c) msg
        hs.wf hopen hr
      exact Or.inr ⟨r, sid, _, hr, .messages _ told, hdoes⟩
  | handle g ctx a pick =>
    obtain ⟨actionId, x, action⟩ := a
    -- an action but a join is about the room of its client, if there is one
    have hroom : ∀ {s' : CollabService}, (s.findRoomForClient x = none → s' = s) →
        (∀ r, s.findRoomForClient x = some r →
          ∃ h, Happens u s r (.handle g ctx ⟨actionId, x, action⟩ pick) h ∧ Does u s s' r h) →
        Quiet u s s' ∨ ∃ r sid h, s.getRoomByID sid = some r ∧
          Happens u s r (.handle g ctx ⟨actionId, x, action⟩ pick) h ∧ Does u s s' r h := by
      intro s' hnone hsome
      cases hfind : s.findRoomForClient x with
      | none =>
        rw [hnone hfind]
        exact Or.inl hsame
      | some r =>
        obtain ⟨⟨sid, hr⟩, -⟩ := findRoomForClient_eq_some hfind
        obtain ⟨h, hhappens, hdoes⟩ := hsome r hfind
        exact Or.inr ⟨r, sid, h, hr, hhappens, hdoes⟩
    have hbroadcast : ∀ {a : Action}, action = some a → relayed a ≠ none →
        Quiet u s (s.handleBroadcast u g x a).1 ∨ ∃ r sid h, s.getRoomByID sid = some r ∧
          Happens u s r (.handle g ctx ⟨actionId, x, action⟩ pick) h ∧
          Does u s (s.handleBroadcast u g x a).1 r h := by
      rintro a rfl hrelayed
      refine hroom (fun hfind => by rw [handleBroadcast_none hfind]) fun r hfind => ?_
      obtain ⟨h, hhappens, hdoes⟩ := handleBroadcast_happens (g := g) hs.wf hopen hfind hrelayed
      exact ⟨h, hhappens ctx actionId pick, hdoes⟩
    cases action with
    | none => exact Or.inl hsame
    | some action =>
      cases action with
      | join join =>
        refine (handleJoin_happens g ctx join hs hopen).imp id ?_
        rintro ⟨r, sid, h, hr, hhappens, hdoes⟩
        exact ⟨r, sid, h, hr, hhappens actionId x pick, hdoes⟩
      | leave leave =>
        refine hroom (fun hfind => ?_) fun r hfind => ?_
        · simp only [serve, handleAction, handleLeave, hfind]
        · obtain ⟨h, hhappens, hdoes⟩ := handleLeave_happens (g := g) leave pick
            hs.wf hopen hfind
          exact ⟨h, hhappens ctx actionId, hdoes⟩
      | presence p =>
        refine hroom (fun hfind => ?_) fun r hfind => ?_
        · simp only [serve, handleAction, handlePresence, hfind]
        · exact ⟨_, .relayed g ctx actionId x (.presence p) pick _ hfind rfl,
            presence_does hs.wf hopen hfind⟩
      | sceneUpdate _ | cursorUpdate _ | textUpdate _ | sceneInitRequest | sceneInitResponse _
      | credentialsChanged _ | titleChanged _ | appMessage _ =>
        exact hbroadcast rfl (by simp [relayed])

/-- What a request does to a room is one of the things that can come of the request. -/
theorem serve_happens (hs : RoomInv u s) (hopen : ChansOpen s) (hr : s.getRoomByID sid = some r)
    (req : Request) : ∃ h, Happens u s r req h ∧ Happened s (s.serve u req) r h := by
  have hlt := (hs.wf.registered hr).2
  rcases serve_cases hs hopen req with hquiet | ⟨r', sid', h, hr', hhappens, hdoes⟩
  · exact ⟨_, .messages req _, hquiet.happened hs.wf hlt⟩
  · by_cases hrr : r = r'
    · subst hrr
      exact ⟨h, hhappens, hdoes.toHappened⟩
    · exact ⟨_, .messages req _, hdoes.elsewhere hs.wf hlt hrr⟩

/-- A client in no room hears nothing. -/
theorem serve_stranger {c : String} (hs : RoomInv u s) (hopen : ChansOpen s)
    (hc : Issued u s c) (hnot : ∀ r, c ∉ (s.roomAt r).clients) (req : Request) :
    Hears s (s.serve u req) c [] := by
  rcases serve_cases hs hopen req with hquiet | ⟨r, sid, h, -, -, hdoes⟩
  · exact hquiet.hears c hc
  · exact hdoes.others c hc (hnot r)

end CollabService

end MassRelay

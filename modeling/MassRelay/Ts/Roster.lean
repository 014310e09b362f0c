import MassRelay.Services.Welcome
import MassRelay.Ts.Replica

/-!
# MassRelay.Ts.Roster

The peers of a client and the clients of its room.

A client starts from the `RoomJoined` of its join and handles the events of its queue in
order. The peers that it then has are the clients of its room on the relay, itself included
(`roster_refines`). The relation between the two (`Roster`) speaks of any client that
handles the events, whatever it was before the join, and each happening keeps it. A session
that ends takes its clients out of every room, where they hear nothing more (`Stranger`), so
that `SessionEnded` is the last event and leaves no peers.
-/

namespace MassRelay.Ts

open CollabService Ts.CollabClient

variable {u : UuidSource} {s : CollabService} {r : RoomRef} {c : String} {req : Request}

/-! ### Events and peers -/

/-- An event that a room relays for a client is about no peers. -/
theorem after_fanOut_peers {action : Action} {e : Event} (h : action.fanOut = some e)
    (cl : CollabClient) : (cl.after e).peers = cl.peers := by
  cases action with
  | appMessage am =>
    simp only [Action.fanOut] at h
    split at h
    · obtain rfl := Option.some.inj h
      rfl
    · simp at h
  | join _ | leave _ => simp [Action.fanOut] at h
  | _ =>
    obtain rfl := Option.some.inj h
    rfl

theorem after_appMessages (messages : List AppMessage) (cl : CollabClient) :
    (messages.map Event.appMessage).foldl after cl = cl := by
  rw [List.foldl_map]
  exact List.foldl_fixed' (fun _ => rfl) _

/-- The end of a session leaves a client without peers, whether or not it comes back. -/
theorem after_sessionEnded_peers (cl : CollabClient) (reason : String) :
    (cl.after (.sessionEnded reason)).peers = ∅ := by
  have hclose : ∀ (grpc : Option Nat) (cl : CollabClient), (cl.close grpc).peers = cl.peers := by
    intro grpc cl
    cases grpc <;> rfl
  have hreconnect : ∀ cl : CollabClient, (silent.scheduleReconnect cl).peers = cl.peers := by
    intro cl
    unfold Page.scheduleReconnect
    split <;> rfl
  change (silent.handleSessionEnded reason cl).peers = ∅
  unfold Page.handleSessionEnded
  split
  · rw [Page.dropAndReconnect, hreconnect]
    refine Eq.trans ?_ (hclose cl.grpc cl.resetState)
    split <;> rfl
  · change (silent.closeFromRelay cl).peers = ∅
    refine Eq.trans ?_ (hclose cl.grpc { cl with explicitDisconnect := true }.resetState)
    unfold Page.closeFromRelay
    dsimp only
    split <;> rfl

/-! ### In a room -/

/-- A client that handles its answer and these events has the clients of the room for peers. -/
def Roster (w : RoomJoined) (es : List Event) (v : RoomView) : Prop :=
  ∀ (before : CollabClient) (id : String),
    id ∈ (es.foldl after (before.after (.roomJoined w))).peers ↔ id ∈ v.clients

/-- What a client is told about its room keeps its peers right. -/
theorem told_roster {h : Happening} {v : RoomView} {cl : CollabClient} (hnodup : v.clients.Nodup)
    (hc : c ∈ (h.apply v).clients)
    (hjoined : ∀ peer join, h = .joined peer join → peer.clientId ≠ "")
    (hpeers : ∀ id, id ∈ cl.peers ↔ id ∈ v.clients) (id : String) :
    id ∈ ((h.told v c).foldl after cl).peers ↔ id ∈ (h.apply v).clients := by
  cases h with
  | messages told =>
    rw [Happening.told, after_appMessages]
    exact hpeers id
  | relayed x action =>
    have hclients : ((Happening.relayed x action).apply v).clients = v.clients := by
      cases action <;> rfl
    rw [hclients, ← hpeers, Happening.told]
    split
    · rfl
    · cases hevent : action.fanOut with
      | none => rfl
      | some e =>
        rw [Option.toList_some, List.foldl_cons, List.foldl_nil, after_fanOut_peers hevent]
  | declared => exact hpeers id
  | joined peer join =>
    rw [Happening.told, List.foldl_cons, List.foldl_nil, after_peerJoined,
      mem_setPeer (hjoined peer join rfl), hpeers, Happening.apply, List.mem_insert_iff]
    rfl
  | left x reason =>
    have hx : c ≠ x := (hnodup.mem_erase_iff.mp hc).1
    rw [Happening.told, if_neg hx, List.foldl_cons, List.foldl_nil, after_peerLeft,
      Happening.apply, hnodup.mem_erase_iff, ← hpeers]
    exact AList.mem_erase
  | moved x reason successor =>
    have hx : c ≠ x := (hnodup.mem_erase_iff.mp hc).1
    rw [Happening.told, if_neg hx, List.foldl_cons, List.foldl_cons, List.foldl_nil,
      after_ownerChanged, after_peerLeft, Happening.apply, hnodup.mem_erase_iff, AList.mem_erase,
      mem_setOwner, hpeers]
  | ended x => simp [Happening.apply] at hc

/-- The answer of a join names the clients of the room, and the client adds itself. -/
theorem roster_welcomed {s' : CollabService} {join : JoinRoom} {w : RoomJoined}
    (hw : Welcomed u s s' r join w) : Roster w [] (s'.view r) := by
  intro before id
  obtain ⟨k, -, hk⟩ := hw.issued
  obtain ⟨peers, heq, hmem⟩ := after_roomJoined before w (hk ▸ u.new_ne_empty k) hw.peers
  rw [List.foldl_nil, heq, hw.clients]
  exact hmem id

/-- A request keeps the peers of the clients right. -/
theorem roster_serve {ws : List (JoinRoom × RoomJoined)} (hs : RoomInv u s) (hopen : ChansOpen s)
    (hws : Recorded u s ws) (hroster : Agrees Roster s ws) (req : Request) :
    Agrees Roster (s.serve u req) (ws ++ (s.joinAnswer u req).toList) := by
  refine Agrees.serve hs hopen hws hroster (fun r join w hw => roster_welcomed hw) ?_
  intro r h w es hhappens hc hslow hfree hstays hP before id
  rw [List.foldl_append]
  refine told_roster (hs.wf.nodup r) hstays (fun peer join hjoined => ?_) (hP before) id
  subst hjoined
  cases hhappens with
  | joined g ctx actionId clientId _ pick _ hallows hr haccept hpeer hne => exact hne

theorem roster_serveAll (u : UuidSource) (maxPeers : Int) (reqs : List Request) :
    Agrees Roster (serveAll u (newCollabService maxPeers) reqs)
      (welcomes u (newCollabService maxPeers) reqs) := by
  induction reqs using List.reverseRecOn with
  | nil =>
    intro p hp
    simp [welcomes] at hp
  | append_singleton reqs req ih =>
    rw [welcomes_append, serveAll, List.foldl_append]
    exact roster_serve (.serveAll maxPeers reqs) (.serveAll maxPeers reqs)
      (.serveAll maxPeers reqs) ih req

/-! ### After the end of a session -/

/-- A client of the past. -/
structure Stranger (u : UuidSource) (s : CollabService) (c : String) : Prop where
  issued : Issued u s c
  out : ∀ r, c ∉ (s.roomAt r).clients

theorem Stranger.serve (hs : RoomInv u s) (hopen : ChansOpen s) (hc : Stranger u s c)
    (req : Request) : Stranger u (s.serve u req) c where
  issued := Issued.mono (serve_nextUuid s req) hc.issued
  out r hmem := hc.out r (serve_old hs hopen hc.issued hmem)

/-- The session of client `c` ends under it: the request takes it out of its room, and is not a
leave of its own. -/
def EndsFor (u : UuidSource) (s : CollabService) (c : String) (req : Request) : Prop :=
  (∃ r, c ∈ (s.roomAt r).clients ∧ c ∉ ((s.serve u req).roomAt r).clients) ∧
    ∀ g ctx actionId leave pick, req ≠ .handle g ctx ⟨actionId, c, some (.leave leave)⟩ pick

/-- A client whose session is over: its last event says so, and it is in no room. -/
structure Ended (u : UuidSource) (s : CollabService) (c : String) : Prop extends
    Stranger u s c where
  last : (s.clientAt c).slow = false →
    ∃ es, s.heard c = es ++ [.sessionEnded "owner_disconnected"]

theorem ended_of_endsFor (hs : RoomInv u s) (hopen : ChansOpen s) (hends : EndsFor u s c req) :
    Ended u (s.serve u req) c := by
  obtain ⟨⟨r, hc, hgone⟩, hown⟩ := hends
  obtain ⟨h, hhappens, hdoes⟩ := serve_happens hs hopen (hs.wf.live hc) req
  have hout : c ∉ (h.apply (s.view r)).clients := by
    rw [← hdoes.view]
    exact hgone
  have hissued := (hs.wf.member hc).2.2
  have hstranger : Stranger u (s.serve u req) c := by
    refine ⟨Issued.mono (serve_nextUuid s req) hissued, fun r' hc' => hgone ?_⟩
    obtain rfl := hs.wf.room_unique (serve_old hs hopen hissued hc') hc
    exact hc'
  refine ⟨hstranger, fun hslow => ?_⟩
  have hheard := ((hdoes.hears c hc).kept hslow).2.1
  -- of all that can happen, only an end takes out another client than the one that acts
  cases hhappens with
  | messages req told => exact absurd hc hout
  | relayed g ctx actionId x action pick event hfind hevent =>
    cases action <;> exact absurd hc hout
  | declared g ctx actionId clientId join pick hallows hr hrefuse hdeclares => exact absurd hc hout
  | joined g ctx actionId clientId join pick peer hallows hr haccept hpeer hne =>
    exact absurd (List.mem_insert_of_mem hc) hout
  | left g ctx actionId x leave pick hfind =>
    by_cases hx : c = x
    · subst hx
      exact absurd rfl (hown g ctx actionId leave pick)
    · exact absurd ((List.mem_erase_of_ne hx).mpr hc) hout
  | moved g ctx actionId x leave pick successor hfind =>
    by_cases hx : c = x
    · subst hx
      exact absurd rfl (hown g ctx actionId leave pick)
    · exact absurd ((List.mem_erase_of_ne hx).mpr hc) hout
  | ended g ctx actionId x leave pick hfind =>
    have hx : c ≠ x := by
      rintro rfl
      exact hown g ctx actionId leave pick rfl
    refine ⟨s.heard c, hheard.trans ?_⟩
    rw [Happening.told, if_neg hx]

theorem Ended.serve (hs : RoomInv u s) (hopen : ChansOpen s) (hc : Ended u s c) (req : Request) :
    Ended u (s.serve u req) c where
  toStranger := hc.toStranger.serve hs hopen req
  last hslow := by
    obtain ⟨hslow', hheard, -⟩ := (serve_stranger hs hopen hc.issued hc.out req).kept hslow
    rw [hheard, List.append_nil]
    exact hc.last hslow'

/-- The session of client `c` ends under it somewhere in the run. -/
def EndsIn (u : UuidSource) (maxPeers : Int) (reqs : List Request) (c : String) : Prop :=
  ∃ pre req, pre ++ [req] <+: reqs ∧ EndsFor u (serveAll u (newCollabService maxPeers) pre) c req

theorem ended_serveAll {maxPeers : Int} {reqs : List Request} (h : EndsIn u maxPeers reqs c) :
    Ended u (serveAll u (newCollabService maxPeers) reqs) c := by
  obtain ⟨pre, req, ⟨post, rfl⟩, hends⟩ := h
  induction post using List.reverseRecOn with
  | nil =>
    rw [List.append_nil, serveAll, List.foldl_append]
    exact ended_of_endsFor (.serveAll maxPeers pre) (.serveAll maxPeers pre) hends
  | append_singleton post req' ih =>
    rw [← List.append_assoc, serveAll, List.foldl_append]
    exact ih.serve (.serveAll maxPeers _) (.serveAll maxPeers _) req'

/-! ### The client of a page -/

/-- In every run, each client of a room has one answer; and a client that keeps up, after it
handles its answer and then its queue, has exactly the clients of its room for peers, and none
if its session ended, of which its last event tells it. -/
theorem roster_refines {σ : Type} (page : Listener σ) (u : UuidSource) (maxPeers : Int)
    (reqs : List Request) :
    (∀ r, ∀ c ∈ ((serveAll u (newCollabService maxPeers) reqs).roomAt r).clients,
      ∃! w, w ∈ (welcomes u (newCollabService maxPeers) reqs).map (·.2) ∧ w.clientId = c) ∧
    ∀ w ∈ (welcomes u (newCollabService maxPeers) reqs).map (·.2),
      ((serveAll u (newCollabService maxPeers) reqs).clientAt w.clientId).slow = false →
      ∀ (answer : CollabEvent) (before : σ), answer.event = .roomJoined w →
        let s := serveAll u (newCollabService maxPeers) reqs
        let events := (s.clientAt w.clientId).enqueued.map (·.event)
        let replica := page.client (page.handleEvents (answer :: events) before)
        (∀ r, w.clientId ∈ (s.roomAt r).clients →
          ∀ id, id ∈ replica.peers ↔ id ∈ (s.roomAt r).clients) ∧
        (EndsIn u maxPeers reqs w.clientId →
          events.getLast?.map (·.event) = some (.sessionEnded "owner_disconnected") ∧
            replica.peers = ∅) := by
  have hrecorded := Recorded.serveAll (u := u) maxPeers reqs
  refine ⟨fun r c hc => ?_, ?_⟩
  · obtain ⟨p, hp, hid⟩ := hrecorded.member r c hc
    refine ⟨p.2, ⟨List.mem_map_of_mem hp, hid⟩, ?_⟩
    rintro w ⟨hw, hid'⟩
    obtain ⟨q, hq, rfl⟩ := List.mem_map.mp hw
    rw [List.inj_on_of_nodup_map hrecorded.nodup hq hp (hid'.trans hid.symm)]
  · intro w hw hslow answer before hanswer
    obtain ⟨p, hp, rfl⟩ := List.mem_map.mp hw
    intro s events replica
    -- the page sees the events that the queue held
    have hreplica : replica =
        (s.heard p.2.clientId).foldl after ((page.client before).after (.roomJoined p.2)) := by
      have hevents : events.map (·.event) = s.heard p.2.clientId := List.map_map
      change page.client (page.handleEvents (answer :: events) before) = _
      rw [page.client_handleEvents, List.map_cons, List.foldl_cons, hevents, hanswer]
    refine ⟨fun r hc id => ?_, fun hends => ?_⟩
    · rw [hreplica]
      exact roster_serveAll u maxPeers reqs p hp r hc hslow (page.client before) id
    · obtain ⟨es, hes⟩ := (ended_serveAll hends).last hslow
      constructor
      · have hlast : events.getLast?.map (·.event) = (s.heard p.2.clientId).getLast? := by
          simp only [heard, events, List.getLast?_map, Option.map_map, Function.comp_def]
        rw [hlast]
        change (heard s p.2.clientId).getLast? = _
        rw [hes, List.getLast?_concat]
      · rw [hreplica]
        rw [hes, List.foldl_append, List.foldl_cons, List.foldl_nil]
        exact after_sessionEnded_peers _ _

/-- A leave of client `c`. -/
def leaveS1 (c : String) : Request :=
  .handle (.direct 0) none { clientId := c, action := some (.leave ⟨"bye"⟩) } 0

def silentListener : Listener CollabClient where
  toPage := silent
  client_call _ _ := rfl

/-- The owner of session `s1` leaves, and a viewer has nobody left. -/
theorem roster_evicted : ∃ w ∈ (welcomes .unary (newCollabService 10)
      [joinS1 true "b1", joinS1 false "b2", leaveS1 "u"]).map (·.2), w.clientId = "uuuu" ∧
    (silentListener.client
      (silentListener.handleEvents ({ eventId := "", event := .roomJoined w } ::
      ((serveAll .unary (newCollabService 10) [joinS1 true "b1", joinS1 false "b2",
        leaveS1 "u"]).clientAt w.clientId).enqueued.map (·.event)) {})).peers = ∅ := by
  have hviewer : ∃ w ∈ (welcomes .unary (newCollabService 10)
      [joinS1 true "b1", joinS1 false "b2", leaveS1 "u"]).map (·.2), w.clientId = "uuuu" := by
    decide
  obtain ⟨w, hw, hid⟩ := hviewer
  refine ⟨w, hw, hid, (((roster_refines silentListener .unary 10 _).2 w hw ?_
    { eventId := "", event := .roomJoined w } {} rfl).2 ⟨[joinS1 true "b1", joinS1 false "b2"],
      leaveS1 "u", List.prefix_rfl, ?_, ?_⟩).2⟩
  · rw [hid]
    decide
  · rw [hid]
    exact ⟨0, by decide⟩
  · intro g ctx actionId leave pick heq
    rw [hid] at heq
    simp [leaveS1] at heq

end MassRelay.Ts

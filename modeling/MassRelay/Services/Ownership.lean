import MassRelay.Services.Invariant

/-!
# MassRelay.Services.Ownership

Who may move or end a session, and who may take it over.

Both are decided by the clients' `IsOwner` flags and the browser ids they sent.
The flags are set by an owner's join and by a transfer and never cleared, so a
browser that rejoined as owner before its old connection was cleaned up leaves a
flagged client behind that is no longer the room's `OwnerClientId`
(`leave_onlyOwner_iff`). And the check at a join compares browser ids without
asking whether there is one, unlike the choice of a successor at a leave
(`join_sameBrowser_iff`).
-/

namespace MassRelay

namespace CollabService

variable {u : UuidSource} {s s' : CollabService} {g : Goroutine} {x : String} {r : RoomRef}

/-! ### What a leave delivers -/

/-- The `deliver` calls a step made. -/
def newDeliveries (s s' : CollabService) : List Delivery := s'.sent.drop s.sent.length

theorem newDeliveries_of_append {ds : List Delivery} (h : s'.sent = s.sent ++ ds) :
    newDeliveries s s' = ds := by
  rw [newDeliveries, h, List.drop_left]

theorem removeRoom_sent (s : CollabService) (sid : String) : (s.removeRoom sid).sent = s.sent := by
  unfold removeRoom
  split
  · rfl
  · split <;> rfl

/-- Announcing a leaver delivers `PeerLeft` to each remaining client. -/
theorem announceLeft_sent {reason : String} {n : Nat} :
    (s.announceLeft u g x reason r n).1.sent =
      s.sent ++ (s.roomAt r).clients.map fun c =>
        ⟨g, c, peerLeftEvent (s.uuid u) x reason n⟩ := by
  have hbroadcast : (s.tick.broadcastToAll g r (peerLeftEvent (s.uuid u) x reason n)).sent =
      s.sent ++ (s.roomAt r).clients.map fun c =>
        ⟨g, c, peerLeftEvent (s.uuid u) x reason n⟩ := by
    simp [broadcastToAll, deliverAll_sent, tick]
  unfold announceLeft
  dsimp only
  split
  · exact (removeRoom_sent _ _).trans hbroadcast
  · exact hbroadcast

/-- Ending a session delivers `SessionEnded` to each remaining client. -/
theorem endRoom_sent :
    (s.endRoom u g x r).1.sent =
      s.sent ++ (s.roomAt r).clients.map fun c =>
        ⟨g, c, ownerDisconnectedEvent (s.uuid u) x⟩ := by
  unfold endRoom closeAllClients
  dsimp only
  refine (removeRoom_sent _ _).trans ((closeClients_sent _ _).trans ?_)
  simp [broadcastToAll, deliverAll_sent, tick]

/-- Announcing a leaver leaves the room as it is; it stays registered unless empty. -/
theorem announceLeft_room (u : UuidSource) (g : Goroutine) (x reason : String) (n : Nat)
    {sid : String} (hr : s.getRoomByID sid = some r) (hsid : (s.roomAt r).sessionId = sid) :
    ((s.announceLeft u g x reason r n).1.roomAt r).ownerClientId = (s.roomAt r).ownerClientId ∧
    ((s.announceLeft u g x reason r n).1.roomAt r).clients = (s.roomAt r).clients ∧
    (n ≠ 0 → (s.announceLeft u g x reason r n).1.getRoomByID sid = some r) := by
  have hsame : SameRooms s (s.tick.broadcastToAll g r (peerLeftEvent (s.uuid u) x reason n)) :=
    (SameRooms.tick s).trans (SameRooms.deliverAll g _ _)
  unfold announceLeft
  dsimp only
  generalize s.tick.broadcastToAll g r (peerLeftEvent (s.uuid u) x reason n) = s₁ at hsame ⊢
  have hr₁ : s₁.getRoomByID (s₁.roomAt r).sessionId = some r := by
    rw [hsame.getRoomByID, hsame.sessionId, hsid]
    exact hr
  split
  · rename_i hn
    have hroom : (s₁.removeRoom (s₁.roomAt r).sessionId).roomAt = s₁.roomAt := by
      rcases removeRoom_eq hr₁ with ⟨-, h⟩ | ⟨-, -, h, -⟩
      · rw [h]
      · exact h
    refine ⟨?_, ?_, fun h => absurd hn h⟩
    · exact (congrArg (fun f => (f r).ownerClientId) hroom).trans (hsame.ownerClientId r)
    · exact (congrArg (fun f => (f r).clients) hroom).trans (hsame.clients r)
  · refine ⟨hsame.ownerClientId r, hsame.clients r, fun _ => ?_⟩
    exact (hsame.getRoomByID sid).trans hr

/-! ### Only the owner's departure moves or ends a session -/

/-- The leave of `x` from room `r` ended the session for the clients that were
left: they were told so, or their room was unregistered. -/
def EndsSession (s s' : CollabService) (r : RoomRef) (x : String) : Prop :=
  (∃ d ∈ newDeliveries s s', d.event.event = .sessionEnded "owner_disconnected") ∨
  ((s.roomAt r).clients.erase x ≠ [] ∧ s'.getRoomByID (s.roomAt r).sessionId ≠ some r)

/-- The leave of `x` from room `r` moved the ownership. -/
def MovesOwner (s s' : CollabService) (r : RoomRef) : Prop :=
  (∃ d ∈ newDeliveries s s', ∃ owner, d.event.event = .ownerChanged owner) ∨
  (s'.roomAt r).ownerClientId ≠ (s.roomAt r).ownerClientId

/-- Only the departure of the owner that the room names moves or ends its session. -/
structure OnlyOwnerDeparture (s s' : CollabService) (r : RoomRef) (x : String) : Prop where
  /-- A session ends with its owner, if no tab of the owner's browser is left. -/
  ended : EndsSession s s' r x → x = (s.roomAt r).ownerClientId ∧
    ∀ c ∈ (s.roomAt r).clients, c ≠ x →
      ¬ ((s.clientAt x).browserId ≠ "" ∧ (s.clientAt c).browserId = (s.clientAt x).browserId)
  moved : MovesOwner s s' r → x = (s.roomAt r).ownerClientId
  /-- Anyone else leaves the owner, the other clients and their room in place. -/
  others : x ≠ (s.roomAt r).ownerClientId →
    (s'.roomAt r).ownerClientId = (s.roomAt r).ownerClientId ∧
    (s'.roomAt r).clients = (s.roomAt r).clients.erase x ∧
    ((s.roomAt r).clients.erase x ≠ [] → s'.getRoomByID (s.roomAt r).sessionId = some r)

/-- A leave that takes the plain branch concerns nobody else. -/
theorem plainLeave_onlyOwner {reason sid : String} (hr : s.getRoomByID sid = some r)
    (hsid : (s.roomAt r).sessionId = sid) :
    OnlyOwnerDeparture s
      ((s.removeLeft r x).announceLeft u g x reason r
        ((s.removeLeft r x).clientCount r)).1 r x := by
  set s' := ((s.removeLeft r x).announceLeft u g x reason r ((s.removeLeft r x).clientCount r)).1
  have hsent : newDeliveries s s' = ((s.removeLeft r x).roomAt r).clients.map fun c =>
      ⟨g, c, peerLeftEvent ((s.removeLeft r x).uuid u) x reason
        ((s.removeLeft r x).clientCount r)⟩ :=
    newDeliveries_of_append announceLeft_sent
  obtain ⟨howner, hclients, hreg⟩ := announceLeft_room (s := s.removeLeft r x) u g x reason
    ((s.removeLeft r x).clientCount r) hr (by rw [removeLeft_roomAt_self]; exact hsid)
  rw [removeLeft_roomAt_self] at howner hclients
  have hkept : (s.roomAt r).clients.erase x ≠ [] →
      s'.getRoomByID (s.roomAt r).sessionId = some r := by
    intro hne
    rw [hsid]
    refine hreg ?_
    rw [removeLeft_clientCount]
    exact fun h => hne (List.eq_nil_of_length_eq_zero h)
  constructor
  · rintro (⟨d, hd, hevent⟩ | ⟨hne, hgone⟩)
    · rw [hsent] at hd
      obtain ⟨c, -, rfl⟩ := List.mem_map.mp hd
      simp [peerLeftEvent] at hevent
    · exact absurd (hkept hne) hgone
  · rintro (⟨d, hd, owner, hevent⟩ | hne)
    · rw [hsent] at hd
      obtain ⟨c, -, rfl⟩ := List.mem_map.mp hd
      simp [peerLeftEvent] at hevent
    · exact absurd howner hne
  · intro _
    exact ⟨howner, hclients, hkept⟩

/-- A leave that ends the session is the owner's exactly when it ought to be. -/
theorem endedLeave_onlyOwner_iff {pick : Nat} (hs : RoomsWF u s)
    (hrest : (s.roomAt r).clients.erase x ≠ [])
    (hsucc : (s.removeLeft r x).findSuccessor r (s.clientAt x).browserId x pick = none) :
    OnlyOwnerDeparture s ((s.removeLeft r x).endRoom u g x r).1 r x ↔
      x = (s.roomAt r).ownerClientId := by
  have hsent : newDeliveries s ((s.removeLeft r x).endRoom u g x r).1 =
      ((s.removeLeft r x).roomAt r).clients.map fun c =>
        ⟨g, c, ownerDisconnectedEvent ((s.removeLeft r x).uuid u) x⟩ :=
    newDeliveries_of_append endRoom_sent
  constructor
  · intro h
    refine (h.ended (Or.inl ?_)).1
    obtain ⟨c, hc⟩ := List.exists_mem_of_ne_nil _ hrest
    refine ⟨⟨g, c, ownerDisconnectedEvent ((s.removeLeft r x).uuid u) x⟩, ?_, rfl⟩
    rw [hsent, removeLeft_roomAt_self]
    exact List.mem_map_of_mem hc
  · intro howner
    refine ⟨fun _ => ⟨howner, ?_⟩, fun _ => howner, fun hne => absurd howner hne⟩
    intro c hc hcx
    refine findSuccessor_eq_none hsucc ?_ ?_
    · rw [removeLeft_roomAt_self]
      exact (List.mem_erase_of_ne hcx).mpr hc
    · rw [show ((s.removeLeft r x).clientAt c) = s.clientAt c from rfl, (hs.member hc).1]
      exact hcx

/-- A leave that moves the ownership is the owner's exactly when it ought to be. -/
theorem movedLeave_onlyOwner_iff {reason successor sid : String} {s₂ : CollabService}
    (hr : s.getRoomByID sid = some r) (hsid : (s.roomAt r).sessionId = sid)
    (hrest : (s.roomAt r).clients.erase x ≠ [])
    (hsame : SameRooms ((s.removeLeft r x).transferOwner r successor) s₂)
    (hsent : s₂.sent = s.sent ++ ((s.roomAt r).clients.erase x).map fun c =>
      ⟨g, c, ((s.removeLeft r x).transferOwner r successor).ownerChangedEvent
        (((s.removeLeft r x).transferOwner r successor).uuid u) x successor⟩) :
    OnlyOwnerDeparture s
        (s₂.announceLeft u g x reason r ((s.removeLeft r x).clientCount r)).1 r x ↔
      x = (s.roomAt r).ownerClientId := by
  have hall : (s₂.announceLeft u g x reason r ((s.removeLeft r x).clientCount r)).1.sent = _ :=
    announceLeft_sent
  rw [hsent, List.append_assoc] at hall
  have hnew := newDeliveries_of_append hall
  constructor
  · intro h
    refine h.moved (Or.inl ?_)
    obtain ⟨c, hc⟩ := List.exists_mem_of_ne_nil _ hrest
    refine ⟨⟨g, c, ((s.removeLeft r x).transferOwner r successor).ownerChangedEvent
      (((s.removeLeft r x).transferOwner r successor).uuid u) x successor⟩, ?_, _, rfl⟩
    rw [hnew]
    exact List.mem_append_left _ (List.mem_map_of_mem hc)
  · intro howner
    refine ⟨?_, fun _ => howner, fun hne => absurd howner hne⟩
    rintro (⟨d, hd, hevent⟩ | ⟨-, hgone⟩)
    · rw [hnew, List.mem_append, List.mem_map, List.mem_map] at hd
      rcases hd with ⟨c, -, rfl⟩ | ⟨c, -, rfl⟩
      · simp [ownerChangedEvent] at hevent
      · simp [peerLeftEvent] at hevent
    · refine absurd ?_ hgone
      rw [hsid]
      refine (announceLeft_room u g x reason _ ((hsame.getRoomByID sid).trans hr) ?_).2.2 ?_
      · rw [hsame.sessionId, (transferOwner_clients _ _ _).2, removeLeft_roomAt_self]
        exact hsid
      · rw [removeLeft_clientCount]
        exact fun h => hrest (List.eq_nil_of_length_eq_zero h)

/-- In every run, a leave respects the owner exactly when the leaver is the owner
the room names, or is not flagged as one, or leaves nobody behind. What goes wrong
is the leave of a client that is still flagged after another tab of its browser
became the owner. -/
theorem leave_onlyOwner_iff (u : UuidSource) (maxPeers : Int) (reqs : List Request)
    (g : Goroutine) (ctx : Ctx) (actionId x : String) (leave : LeaveRoom) (pick : Nat)
    (r : RoomRef)
    (hfind : (serveAll u (newCollabService maxPeers) reqs).findRoomForClient x = some r) :
    OnlyOwnerDeparture (serveAll u (newCollabService maxPeers) reqs)
        (serveAll u (newCollabService maxPeers)
          (reqs ++ [.handle g ctx ⟨actionId, x, some (.leave leave)⟩ pick])) r x ↔
      x = ((serveAll u (newCollabService maxPeers) reqs).roomAt r).ownerClientId ∨
      ((serveAll u (newCollabService maxPeers) reqs).clientAt x).info.isOwner = false ∨
      ((serveAll u (newCollabService maxPeers) reqs).roomAt r).clients.erase x = [] := by
  have hinv : RoomInv u (serveAll u (newCollabService maxPeers) reqs) :=
    RoomInv.serveAll maxPeers reqs
  have hlast : serveAll u (newCollabService maxPeers)
      (reqs ++ [.handle g ctx ⟨actionId, x, some (.leave leave)⟩ pick]) =
      ((serveAll u (newCollabService maxPeers) reqs).handleLeave u g x leave pick).1 := by
    simp [serveAll, serve, handleAction]
  rw [hlast]
  generalize serveAll u (newCollabService maxPeers) reqs = s at hfind hinv ⊢
  obtain ⟨⟨sid, hr⟩, hx⟩ := findRoomForClient_eq_some hfind
  have hsid := (hinv.wf.registered hr).1
  cases handleLeave_cases (u := u) (g := g) leave pick hfind with
  | plain hplain heq =>
    rw [heq]
    exact iff_of_true (plainLeave_onlyOwner hr hsid) (Or.inr hplain)
  | ended pick hflag hrest hsucc heq =>
    rw [heq, endedLeave_onlyOwner_iff hinv.wf hrest hsucc]
    simp [hflag, hrest]
  | moved pick successor hflag hrest hsucc heq =>
    have hsame : SameRooms ((s.removeLeft r x).transferOwner r successor)
        (broadcastToAll g ((s.removeLeft r x).transferOwner r successor).tick r
          (((s.removeLeft r x).transferOwner r successor).ownerChangedEvent
            (((s.removeLeft r x).transferOwner r successor).uuid u) x successor)) :=
      (SameRooms.tick _).trans (SameRooms.deliverAll g _ _)
    rw [heq, movedLeave_onlyOwner_iff hr hsid hrest hsame]
    · simp [hflag, hrest]
    · rw [broadcastToAll, deliverAll_sent]
      simp [tick, transferOwner_clients, removeLeft_roomAt_self]
      rfl

/-- An anonymous join of session `s1`. -/
def joinS1 (isOwner : Bool) (browserId : String) : Request :=
  .handle (.direct 0) none { action := some (.join { sessionId := "s1", isOwner, browserId }) } 0

/-- An owner with a follower: the owner's leave is the one that ends the session. -/
theorem ownerLeave_onlyOwner :
    (serveAll .unary (newCollabService 10) [joinS1 true "b1", joinS1 false "b2"]).findRoomForClient
      "u" = some 0 ∧
    OnlyOwnerDeparture
      (serveAll .unary (newCollabService 10) [joinS1 true "b1", joinS1 false "b2"])
      (serveAll .unary (newCollabService 10) ([joinS1 true "b1", joinS1 false "b2"] ++
        [.handle (.direct 0) none ⟨"", "u", some (.leave ⟨""⟩)⟩ 0])) 0 "u" :=
  ⟨by decide, (leave_onlyOwner_iff .unary 10 [joinS1 true "b1", joinS1 false "b2"] (.direct 0) none
    "" "u" ⟨""⟩ 0 0 (by decide)).mpr (Or.inl (by decide))⟩

/-- An owner whose page sends no browser id joins twice, the second time before its
first connection is cleaned up. The leave of the first client then ends the session
of the second, which is the owner. -/
theorem staleOwnerLeave_endsSession :
    ¬ OnlyOwnerDeparture
      (serveAll .unary (newCollabService 10) [joinS1 true "", joinS1 true ""])
      (serveAll .unary (newCollabService 10) ([joinS1 true "", joinS1 true ""] ++
        [.handle (.direct 0) none ⟨"", "u", some (.leave ⟨"connection closed"⟩)⟩ 0])) 0 "u" := by
  intro h
  have hended := (h.ended (Or.inr ⟨by decide, by decide⟩)).1
  exact absurd hended (by decide)

/-! ### Taking a session over -/

section Takeover

variable {ctx : Ctx} {join : JoinRoom}

/-- Resolving a session takes an id or nothing. -/
theorem resolveSession_snd (u : UuidSource) (join : JoinRoom) (s : CollabService) :
    (s.resolveSession u join).2 = s ∨ (s.resolveSession u join).2 = s.tick := by
  unfold resolveSession
  split
  · exact Or.inl rfl
  · generalize (if join.clientHint ≠ "" then (s.hintIndex join.clientHint).getD "" else "") = sid
    dsimp only
    split
    · exact Or.inl rfl
    · exact Or.inr rfl

/-- Until it looks its room up, a join only takes an id and writes a hint. -/
theorem atLookup_eq (u : UuidSource) (join : JoinRoom) (s : CollabService) :
    ∃ hints n, s.atLookup u join = { s with hintIndex := hints, nextUuid := n } := by
  unfold atLookup indexHint
  rcases resolveSession_snd u join s with h | h <;> rw [h]
  · split <;> exact ⟨_, _, rfl⟩
  · split <;> exact ⟨_, _, rfl⟩

/-- The checks of a join read nothing that changed before them. -/
theorem atLookup_refuses (s : CollabService) (r : RoomRef) :
    (s.atLookup u join).refuses join r = s.refuses join r := by
  obtain ⟨hints, n, h⟩ := atLookup_eq u join s
  rw [h]
  unfold refuses declareEncrypted
  split <;> rfl

/-- The owner of a room is only replaced, while it is there, by a client of its own
browser, as far as it named one; and such a client is never turned away as a
stranger. These are the clients a leave of the owner would pass the room on to. -/
structure OwnerStaysInBrowser (s s' : CollabService) : Prop where
  replaced : ∀ {sid r}, s.getRoomByID sid = some r → (s.roomAt r).ownerClientId ≠ "" →
    (s'.roomAt r).ownerClientId ≠ (s.roomAt r).ownerClientId →
    (s.roomAt r).ownerClientId ∈ (s'.roomAt r).clients →
    (s'.clientAt (s'.roomAt r).ownerClientId).browserId ≠ "" ∧
    (s'.clientAt (s'.roomAt r).ownerClientId).browserId =
      (s'.clientAt (s.roomAt r).ownerClientId).browserId
  admitted : ∀ {sid r b}, s.getRoomByID sid = some r → (s.roomAt r).ownerClientId ≠ "" →
    b ≠ "" → b = (s.clientAt (s.roomAt r).ownerClientId).browserId → s.ownedElsewhere r b = false

/-- An owner join without a browser id that an owned room accepts: the token allows
the session, and none of the checks on the room refuses it. -/
def TakesOverUnnamed (u : UuidSource) (s : CollabService) (ctx : Ctx) (join : JoinRoom) : Prop :=
  join.isOwner = true ∧ join.browserId = "" ∧ allowsRoom ctx join.sessionId = true ∧
  ∃ r, s.getRoomByID (s.joinTarget u join) = some r ∧ (s.roomAt r).ownerClientId ≠ "" ∧
    s.refuses join r = false

/-- Nothing is replaced as long as the owners of the registered rooms stay. -/
theorem OwnerStaysInBrowser.of_sameOwners (hs : RoomInv u s)
    (h : ∀ {sid r}, s.getRoomByID sid = some r →
      (s'.roomAt r).ownerClientId = (s.roomAt r).ownerClientId) : OwnerStaysInBrowser s s' where
  replaced hr _ hne _ := absurd (h hr) hne
  admitted := by
    intro sid r b hr hne _ hb
    simp [ownedElsewhere, hb, ((hs.owners hr).owner hne).2.2]

/-- The room an accepted join enters, when it was there before. -/
theorem handleJoin_accepted {r : RoomRef} (hallow : allowsRoom ctx join.sessionId = true)
    (hr : s.getRoomByID (s.joinTarget u join) = some r) (haccept : s.refuses join r = false) :
    s.handleJoin u g ctx join =
      ((s.atLookup u join).declareEncrypted r join).accept u g ctx join
      (s.joinTarget u join) r := by
  have hr₁ : (s.atLookup u join).getRoomByID (s.joinTarget u join) = some r :=
    ((SameRooms.atLookup s join).getRoomByID _).trans hr
  rw [handleJoin_eq_enterRoom hallow (by simp [hr₁]), getOrCreateRoom_of_registered hr₁,
    enterRoom_accepted ((atLookup_refuses s r).trans haccept)]

/-- What the property says of the state before depends on its rooms only. -/
theorem OwnerStaysInBrowser.congr_left {s₁ : CollabService} (h : SameRooms s s₁) :
    OwnerStaysInBrowser s₁ s' ↔ OwnerStaysInBrowser s s' := by
  constructor
  · intro hstay
    constructor
    · intro sid r hr
      have := @hstay.replaced sid r
      rw [h.getRoomByID, h.ownerClientId] at this
      exact this hr
    · intro sid r b hr
      have := @hstay.admitted sid r b
      rw [h.getRoomByID, h.ownerClientId, h.browserId, ownedElsewhere, h.ownerClientId,
        h.ownerBrowserId] at this
      exact this hr
  · intro hstay
    constructor
    · intro sid r
      rw [h.getRoomByID, h.ownerClientId]
      exact hstay.replaced
    · intro sid r b
      rw [h.getRoomByID, h.ownerClientId, h.browserId, ownedElsewhere, h.ownerClientId,
        h.ownerBrowserId]
      exact hstay.admitted

/-- An accepted join of a registered room respects its owner unless it takes the
room over without naming a browser. -/
theorem enrolled_ownerStays_iff {sid : String} (hs : RoomInv u s)
    (hr : s.getRoomByID sid = some r)
    (haccept : join.isOwner = true → (s.roomAt r).ownerClientId = "" ∨
      (s.roomAt r).ownerBrowserId = join.browserId)
    (hsame : SameRooms (s.enrolled u g ctx join sid r) s') :
    OwnerStaysInBrowser s s' ↔
      ¬ (join.isOwner = true ∧ join.browserId = "" ∧ (s.roomAt r).ownerClientId ≠ "") := by
  have hnew : (s'.clientAt (s.uuid u)).browserId = join.browserId := by
    rw [hsame.browserId, enrolled_clientAt, Function.update_self]
    rfl
  have hold : ∀ {c}, c ∈ (s.roomAt r).clients →
      (s'.clientAt c).browserId = (s.clientAt c).browserId := by
    intro c hc
    have hne : c ≠ s.uuid u := fun h => hs.wf.uuid_notMem r (h ▸ hc)
    rw [hsame.browserId, enrolled_clientAt, Function.update_of_ne hne]
  constructor
  -- the owner before is still in the room, so its successor must name a browser
  · rintro hstay ⟨hflag, hempty, howned⟩
    have hmem := ((hs.owners hr).owner howned).1
    have howner : (s'.roomAt r).ownerClientId = s.uuid u := by
      rw [hsame.ownerClientId, enrolled_roomAt_self]
      simp [hflag]
    have hnamed := (hstay.replaced hr howned ?_ ?_).1
    · rw [howner, hnew] at hnamed
      exact hnamed hempty
    · rw [howner]
      exact fun h => hs.wf.uuid_notMem r (h ▸ hmem)
    · rw [hsame.clients, enrolled_roomAt_self]
      exact List.mem_insert_of_mem hmem
  · intro hnot
    refine ⟨?_, (OwnerStaysInBrowser.of_sameOwners hs fun _ => rfl).admitted⟩
    intro sid' r' hr' howned hne _
    rw [hsame.ownerClientId] at hne
    by_cases hrr : r' = r
    · subst hrr
      rw [enrolled_roomAt_self] at hne
      -- the room changed hands, so the join claimed it
      have hflag : join.isOwner = true := by
        by_contra hflag
        simp [hflag] at hne
      obtain ⟨hmem, -, hbrowser⟩ := (hs.owners hr').owner howned
      have hclaimed := (haccept hflag).resolve_left howned
      rw [hsame.ownerClientId, enrolled_roomAt_self, if_pos hflag, hnew, hold hmem, hbrowser,
        hclaimed]
      exact ⟨fun hempty => hnot ⟨hflag, hempty, howned⟩, rfl⟩
    · rw [enrolled_roomAt_of_ne s hrr] at hne
      exact absurd rfl hne

/-- A join concerns no room but the one it enters. -/
theorem enterRoom_ownerClientId_of_ne {sid : String} {r' : RoomRef} (h : r' ≠ r) :
    ((s.enterRoom u g ctx join sid r).1.roomAt r').ownerClientId = (s.roomAt r').ownerClientId := by
  cases hrefuse : s.refuses join r with
  | true => exact (enterRoom_refused hrefuse).ownerClientId r'
  | false =>
    rw [enterRoom_accepted hrefuse, (SameRooms.accept _).ownerClientId, enrolled_roomAt_of_ne _ h,
      (SameRooms.declareEncrypted s r join).ownerClientId]

/-- A join that finds its room respects the owner unless it takes the room over
without naming a browser. -/
theorem handleJoin_ownerStays_iff (hs : RoomInv u s)
    (hallow : allowsRoom ctx join.sessionId = true)
    (hr : s.getRoomByID (s.joinTarget u join) = some r) :
    OwnerStaysInBrowser s (s.handleJoin u g ctx join).1 ↔
      ¬ (join.isOwner = true ∧ join.browserId = "" ∧ (s.roomAt r).ownerClientId ≠ "" ∧
        s.refuses join r = false) := by
  cases hrefuse : s.refuses join r with
  | true =>
    have hlook := SameRooms.atLookup (u := u) s join
    have hr₁ := (hlook.getRoomByID _).trans hr
    have hsame : SameRooms s (s.handleJoin u g ctx join).1 := by
      rcases handleJoin_cases (u := u) s g ctx join with h | ⟨-, heq⟩
      · exact h
      · rw [heq, getOrCreateRoom_of_registered hr₁]
        exact hlook.trans (enterRoom_refused ((atLookup_refuses s r).trans hrefuse))
    exact iff_of_true (.of_sameOwners hs fun _ => hsame.ownerClientId _) (by simp)
  | false =>
    have hsame : SameRooms s ((s.atLookup u join).declareEncrypted r join) :=
      (SameRooms.atLookup s join).trans (SameRooms.declareEncrypted _ r join)
    rw [handleJoin_accepted hallow hr hrefuse, ← OwnerStaysInBrowser.congr_left hsame,
      enrolled_ownerStays_iff (hs.of_sameRooms hsame) ((hsame.getRoomByID _).trans hr) ?_
        (SameRooms.accept _), hsame.ownerClientId]
    · simp
    · intro hflag
      rw [hsame.ownerClientId, hsame.ownerBrowserId]
      exact owner_of_not_refuses hrefuse hflag

/-- In every run, a join leaves the owner's browser in charge unless it is an owner
join without a browser id that an owned room accepts. -/
theorem join_sameBrowser_iff (u : UuidSource) (maxPeers : Int) (reqs : List Request)
    (g : Goroutine) (ctx : Ctx) (actionId clientId : String) (join : JoinRoom) (pick : Nat) :
    OwnerStaysInBrowser (serveAll u (newCollabService maxPeers) reqs)
        (serveAll u (newCollabService maxPeers)
          (reqs ++ [.handle g ctx ⟨actionId, clientId, some (.join join)⟩ pick])) ↔
      ¬ TakesOverUnnamed u (serveAll u (newCollabService maxPeers) reqs) ctx join := by
  have hinv : RoomInv u (serveAll u (newCollabService maxPeers) reqs) :=
    RoomInv.serveAll maxPeers reqs
  have hlast : serveAll u (newCollabService maxPeers)
      (reqs ++ [.handle g ctx ⟨actionId, clientId, some (.join join)⟩ pick]) =
      ((serveAll u (newCollabService maxPeers) reqs).handleJoin u g ctx join).1 := by
    simp [serveAll, serve, handleAction]
  rw [hlast]
  generalize serveAll u (newCollabService maxPeers) reqs = s at hinv ⊢
  unfold TakesOverUnnamed
  by_cases hallow : allowsRoom ctx join.sessionId = true
  · cases hr : s.getRoomByID (s.joinTarget u join) with
    | some r =>
      rw [handleJoin_ownerStays_iff hinv hallow hr]
      simp [hallow]
    | none =>
      refine iff_of_true (.of_sameOwners hinv ?_) (by simp)
      intro sid r hreg
      rcases handleJoin_cases (u := u) s g ctx join with h | ⟨-, heq⟩
      · exact h.ownerClientId r
      -- the room is a new one, so it is none of those registered before
      · have hlook := SameRooms.atLookup (u := u) s join
        rcases getOrCreateRoom_cases (s.atLookup u join) (s.joinTarget u join) with
          ⟨r', hr', -⟩ | ⟨-, hfst, -, hrooms, -⟩
        · rw [hlook.getRoomByID, hr] at hr'
          exact absurd hr' (by simp)
        · have hne : r ≠ s.nextRoom := (hinv.wf.registered hreg).2.ne
          rw [heq, hfst, hlook.nextRoom, enterRoom_ownerClientId_of_ne hne, hrooms,
            hlook.nextRoom, Function.update_of_ne hne]
          exact hlook.ownerClientId r
  · refine iff_of_true (.of_sameOwners hinv fun _ => ?_) (by simp [hallow])
    rw [handleJoin, if_pos (by simpa using hallow)]
    rfl

/-- The room of an owner that named no browser is taken over by any owner join that
names none either. -/
theorem unnamedOwner_takenOver :
    ¬ OwnerStaysInBrowser (serveAll .unary (newCollabService 10) [joinS1 true ""])
      (serveAll .unary (newCollabService 10) ([joinS1 true ""] ++ [joinS1 true ""])) := by
  intro h
  have hnamed := @h.replaced "s1" 0 (by decide) (by decide) (by decide) (by decide)
  exact absurd hnamed.1 (by decide)

end Takeover

end CollabService

end MassRelay

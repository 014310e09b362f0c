import MassRelay.Services.CollabService

/-!
# MassRelay.Services.Invariant

What holds of the rooms between two requests, when requests do not overlap.

Most operations leave the membership and the ownership of every room alone:
`SameRooms` says so, once for each of them, and `RoomInv.of_sameRooms` carries
the invariant across all of them. Two operations are left, and both break the
invariant between their own steps: an owner's join flags its client before the
room names it (`addJoined`, then `claimRoom`), and a leave removes the owner
before the room has a new one. They are taken as a whole (`RoomInv.accept`,
`RoomInv.handleLeave`).
-/

namespace MassRelay

namespace CollabService

variable {u : UuidSource} {s s' s'' : CollabService}

/-! ### Operations that leave the rooms alone -/

/-- Same registry, same members, same owners, same client records up to queues. -/
structure SameRooms (s s' : CollabService) : Prop where
  rooms : s'.rooms = s.rooms
  nextRoom : s'.nextRoom = s.nextRoom
  nextUuid : s.nextUuid ≤ s'.nextUuid
  sessionId : ∀ r, (s'.roomAt r).sessionId = (s.roomAt r).sessionId
  clients : ∀ r, (s'.roomAt r).clients = (s.roomAt r).clients
  ownerClientId : ∀ r, (s'.roomAt r).ownerClientId = (s.roomAt r).ownerClientId
  ownerBrowserId : ∀ r, (s'.roomAt r).ownerBrowserId = (s.roomAt r).ownerBrowserId
  info : ∀ c, (s'.clientAt c).info = (s.clientAt c).info
  session : ∀ c, (s'.clientAt c).sessionId = (s.clientAt c).sessionId
  browserId : ∀ c, (s'.clientAt c).browserId = (s.clientAt c).browserId

namespace SameRooms

theorem getRoomByID (h : SameRooms s s') (sid : String) :
    s'.getRoomByID sid = s.getRoomByID sid := by
  unfold CollabService.getRoomByID
  rw [h.rooms]

theorem refl (s : CollabService) : SameRooms s s :=
  ⟨rfl, rfl, le_rfl, fun _ => rfl, fun _ => rfl, fun _ => rfl, fun _ => rfl, fun _ => rfl,
    fun _ => rfl, fun _ => rfl⟩

theorem trans (h : SameRooms s s') (h' : SameRooms s' s'') : SameRooms s s'' where
  rooms := h'.rooms.trans h.rooms
  nextRoom := h'.nextRoom.trans h.nextRoom
  nextUuid := h.nextUuid.trans h'.nextUuid
  sessionId r := (h'.sessionId r).trans (h.sessionId r)
  clients r := (h'.clients r).trans (h.clients r)
  ownerClientId r := (h'.ownerClientId r).trans (h.ownerClientId r)
  ownerBrowserId r := (h'.ownerBrowserId r).trans (h.ownerBrowserId r)
  info c := (h'.info c).trans (h.info c)
  session c := (h'.session c).trans (h.session c)
  browserId c := (h'.browserId c).trans (h.browserId c)

/-- A room update that keeps members and owner. -/
theorem modifyRoom (s : CollabService) (r : RoomRef) {f : CollabRoom → CollabRoom}
    (h : ∀ room, (f room).sessionId = room.sessionId ∧ (f room).clients = room.clients ∧
      (f room).ownerClientId = room.ownerClientId ∧ (f room).ownerBrowserId = room.ownerBrowserId) :
    SameRooms s (s.modifyRoom r f) where
  rooms := rfl
  nextRoom := rfl
  nextUuid := le_rfl
  sessionId r' := by
    by_cases hr : r' = r
    · subst hr; simp [CollabService.modifyRoom, h]
    · simp [CollabService.modifyRoom, hr]
  clients r' := by
    by_cases hr : r' = r
    · subst hr; simp [CollabService.modifyRoom, h]
    · simp [CollabService.modifyRoom, hr]
  ownerClientId r' := by
    by_cases hr : r' = r
    · subst hr; simp [CollabService.modifyRoom, h]
    · simp [CollabService.modifyRoom, hr]
  ownerBrowserId r' := by
    by_cases hr : r' = r
    · subst hr; simp [CollabService.modifyRoom, h]
    · simp [CollabService.modifyRoom, hr]
  info _ := rfl
  session _ := rfl
  browserId _ := rfl

/-- A client update that only touches its queue. -/
theorem modifyClient (s : CollabService) (c : String) {f : CollabClient → CollabClient}
    (h : ∀ cl, (f cl).info = cl.info ∧ (f cl).sessionId = cl.sessionId ∧
      (f cl).browserId = cl.browserId) :
    SameRooms s (s.modifyClient c f) where
  rooms := rfl
  nextRoom := rfl
  nextUuid := le_rfl
  sessionId _ := rfl
  clients _ := rfl
  ownerClientId _ := rfl
  ownerBrowserId _ := rfl
  info c' := by
    by_cases hc : c' = c
    · subst hc; simp [CollabService.modifyClient, h]
    · simp [CollabService.modifyClient, hc]
  session c' := by
    by_cases hc : c' = c
    · subst hc; simp [CollabService.modifyClient, h]
    · simp [CollabService.modifyClient, hc]
  browserId c' := by
    by_cases hc : c' = c
    · subst hc; simp [CollabService.modifyClient, h]
    · simp [CollabService.modifyClient, hc]

theorem tick (s : CollabService) : SameRooms s s.tick :=
  { refl s with nextUuid := Nat.le_succ _ }

theorem indexHint (s : CollabService) (hint sid : String) : SameRooms s (s.indexHint hint sid) := by
  unfold CollabService.indexHint
  split
  · exact { refl s with }
  · exact refl s

theorem resolveSession (s : CollabService) (join : JoinRoom) :
    SameRooms s (s.resolveSession u join).2 := by
  unfold CollabService.resolveSession
  split
  · exact refl s
  · generalize (if join.clientHint ≠ "" then (s.hintIndex join.clientHint).getD "" else "") = sid
    dsimp only
    split
    · exact refl s
    · exact tick s

theorem declareEncrypted (s : CollabService) (r : RoomRef) (join : JoinRoom) :
    SameRooms s (s.declareEncrypted r join) := by
  unfold CollabService.declareEncrypted
  split
  · exact modifyRoom s r fun _ => ⟨rfl, rfl, rfl, rfl⟩
  · exact refl s

theorem noteRelayed (s : CollabService) (r : RoomRef) (action : Action) :
    SameRooms s (s.noteRelayed r action) := by
  cases action with
  | credentialsChanged cc =>
    simp only [CollabService.noteRelayed]
    split
    · exact modifyRoom s r fun _ => ⟨rfl, rfl, rfl, rfl⟩
    · exact refl s
  | titleChanged tc =>
    exact modifyRoom s r (f := fun room => { room with title := tc.title })
      fun _ => ⟨rfl, rfl, rfl, rfl⟩
  | _ => exact refl s

theorem noteProgress (s : CollabService) (c : String) (progress : JoinProgress) :
    SameRooms s (s.noteProgress c progress) :=
  modifyClient s c fun _ => ⟨rfl, rfl, rfl⟩

theorem beginDeliver (s : CollabService) (g : Goroutine) (c : String) (e : CollabEvent) :
    SameRooms s (s.beginDeliver g c e).1 := by
  unfold CollabService.beginDeliver
  dsimp only
  split
  · exact { refl s with }
  · exact { refl s with }

theorem put? {g : Goroutine} {c : String} {e : CollabEvent} {k : Nat}
    (h : s.put? g c e k = some s') : SameRooms s s' := by
  rcases put?_eq_some h with ⟨-, rfl⟩ | ⟨ch, -, rfl⟩
  · exact { refl s with }
  · exact modifyClient s c fun _ => ⟨rfl, rfl, rfl⟩

theorem markSlow (s : CollabService) (c : String) (k : Nat) : SameRooms s (s.markSlow c k) :=
  { modifyClient s c (f := fun cl => { cl with slow := true }) fun _ => ⟨rfl, rfl, rfl⟩ with }

theorem deliver (g : Goroutine) (s : CollabService) (c : String) (e : CollabEvent) :
    SameRooms s (s.deliver g c e) := by
  refine deliver_rule (I := SameRooms s) (beginDeliver s g c e) ?_ ?_
  · exact fun hput h => h.trans (put? hput)
  · exact fun {s₁ k} h => h.trans (markSlow s₁ c k)

theorem deliverAll (g : Goroutine) (s : CollabService) (targets : List (String × CollabEvent)) :
    SameRooms s (s.deliverAll g targets) :=
  deliverAll_rule (I := SameRooms s) (fun {s₁ c e} h => h.trans (deliver g s₁ c e)) (refl s)

theorem closeClients (s : CollabService) (cs : List String) :
    SameRooms s (cs.foldl closeClient s) := by
  refine closeClients_rule (I := SameRooms s) ?_ ?_ (refl s)
  · exact fun {s₁} h => h.trans { refl s₁ with }
  · exact fun {s₁} c h => h.trans (modifyClient s₁ c fun _ => ⟨rfl, rfl, rfl⟩)

theorem take? {c : String} {q : Queued} (h : s.take? c = some (q, s')) : SameRooms s s' := by
  obtain ⟨ch, -, rfl⟩ := take?_eq_some h
  exact modifyClient s c fun _ => ⟨rfl, rfl, rfl⟩

theorem receive (s : CollabService) (c : String) : SameRooms s (s.receive c) := by
  unfold CollabService.receive
  split
  · exact refl s
  · rename_i q s' h
    exact take? h

theorem countRelay (s : CollabService) : SameRooms s s.countRelay := { refl s with }

theorem handlePresence (g : Goroutine) (c : String) (p : PresenceUpdate) (s : CollabService) :
    SameRooms s (s.handlePresence u g c p).1 := by
  unfold CollabService.handlePresence
  split
  · exact refl s
  · exact (tick s).trans (deliverAll g _ _)

theorem handleBroadcast (g : Goroutine) (c : String) (action : Action) (s : CollabService) :
    SameRooms s (s.handleBroadcast u g c action).1 := by
  unfold CollabService.handleBroadcast
  split
  · exact refl s
  · rename_i r _
    have hnoted := (tick s).trans (noteRelayed s.tick r action)
    split
    · exact tick s
    · split
      · exact (hnoted.trans (deliverAll g _ _)).trans (countRelay _)
      · dsimp only
        split
        · exact (hnoted.trans (deliverAll g _ _)).trans (countRelay _)
        · exact ((hnoted.trans (deliverAll g _ _)).trans (countRelay _)).trans (tick _)

theorem deliverAppMessage (g : Goroutine) (sid c : String) (msg : AppMessage)
    (s : CollabService) : SameRooms s (s.deliverAppMessage u g sid c msg).1 := by
  unfold CollabService.deliverAppMessage
  split
  · exact refl s
  · dsimp only
    split
    · exact ((tick s).trans (deliverAll g _ _)).trans (countRelay _)
    · exact ((tick s).trans (deliverAll g _ _)).trans (countRelay _)

end SameRooms

/-! ### The invariant -/

/-- The registry and the members of the rooms fit together. -/
structure RoomsWF (u : UuidSource) (s : CollabService) : Prop where
  /-- A room is registered under its own session id. -/
  registered : ∀ {sid r}, s.getRoomByID sid = some r →
    (s.roomAt r).sessionId = sid ∧ r < s.nextRoom
  /-- Only a registered room has clients. -/
  live : ∀ {r c}, c ∈ (s.roomAt r).clients → s.getRoomByID (s.roomAt r).sessionId = some r
  nodup : ∀ r, (s.roomAt r).clients.Nodup
  /-- A client is in the room it joined, under an id that was handed out. -/
  member : ∀ {r c}, c ∈ (s.roomAt r).clients → (s.clientAt c).info.clientId = c ∧
    (s.clientAt c).sessionId = (s.roomAt r).sessionId ∧ ∃ k < s.nextUuid, c = u.new k

/-- The owner a room names is one of its clients, flagged, and every flagged
client is a tab of the owner's browser. -/
structure OwnerOK (s : CollabService) (r : RoomRef) : Prop where
  owner : (s.roomAt r).ownerClientId ≠ "" →
    (s.roomAt r).ownerClientId ∈ (s.roomAt r).clients ∧
    (s.clientAt (s.roomAt r).ownerClientId).info.isOwner = true ∧
    (s.clientAt (s.roomAt r).ownerClientId).browserId = (s.roomAt r).ownerBrowserId
  flags : ∀ {c}, c ∈ (s.roomAt r).clients → (s.clientAt c).info.isOwner = true →
    (s.roomAt r).ownerClientId ≠ "" ∧ (s.clientAt c).browserId = (s.roomAt r).ownerBrowserId

/-- The invariant of a service whose requests do not overlap. -/
structure RoomInv (u : UuidSource) (s : CollabService) : Prop where
  wf : RoomsWF u s
  owners : ∀ {sid r}, s.getRoomByID sid = some r → OwnerOK s r

theorem RoomsWF.of_sameRooms (h : SameRooms s s') (hs : RoomsWF u s) : RoomsWF u s' where
  registered := by
    intro sid r hr
    rw [h.getRoomByID] at hr
    rw [h.sessionId, h.nextRoom]
    exact hs.registered hr
  live := by
    intro r c hc
    rw [h.clients] at hc
    rw [h.sessionId, h.getRoomByID]
    exact hs.live hc
  nodup r := by
    rw [h.clients]
    exact hs.nodup r
  member := by
    intro r c hc
    rw [h.clients] at hc
    obtain ⟨hid, hsid, k, hk, hck⟩ := hs.member hc
    rw [h.info, h.session, h.sessionId]
    exact ⟨hid, hsid, k, hk.trans_le h.nextUuid, hck⟩

theorem OwnerOK.of_sameRooms {r : RoomRef} (h : SameRooms s s') (hs : OwnerOK s r) :
    OwnerOK s' r where
  owner := by
    rw [h.ownerClientId, h.clients, h.info, h.browserId, h.ownerBrowserId]
    exact hs.owner
  flags := by
    intro c hc hflag
    rw [h.clients] at hc
    rw [h.info] at hflag
    rw [h.ownerClientId, h.browserId, h.ownerBrowserId]
    exact hs.flags hc hflag

theorem RoomInv.of_sameRooms (h : SameRooms s s') (hs : RoomInv u s) : RoomInv u s' where
  wf := hs.wf.of_sameRooms h
  owners := by
    intro sid r hr
    rw [h.getRoomByID] at hr
    exact (hs.owners hr).of_sameRooms h

/-- A client is in one room at most. -/
theorem RoomsWF.room_unique (hs : RoomsWF u s) {r r' : RoomRef} {c : String}
    (hc : c ∈ (s.roomAt r).clients) (hc' : c ∈ (s.roomAt r').clients) : r = r' := by
  have hsid : (s.roomAt r).sessionId = (s.roomAt r').sessionId :=
    (hs.member hc).2.1.symm.trans (hs.member hc').2.1
  have hreg := hs.live hc
  rw [hsid, hs.live hc'] at hreg
  exact (Option.some.inj hreg).symm

/-- Nor is anyone in a room that there is not yet. -/
theorem RoomsWF.nextRoom_empty (hs : RoomsWF u s) : (s.roomAt s.nextRoom).clients = [] := by
  refine List.eq_nil_iff_forall_not_mem.mpr fun c hc => ?_
  exact absurd (hs.registered (hs.live hc)).2 (lt_irrefl _)

/-- The next id is nobody's yet. -/
theorem RoomsWF.uuid_notMem (hs : RoomsWF u s) (r : RoomRef) :
    s.uuid u ∉ (s.roomAt r).clients := by
  intro hc
  obtain ⟨-, -, k, hk, hck⟩ := hs.member hc
  exact hk.ne' (u.new_injective hck)

/-! ### A new service, and a new room -/

theorem RoomInv.new (maxPeers : Int) : RoomInv u (newCollabService maxPeers) where
  wf :=
    { registered := by intro sid r h; simp [getRoomByID, newCollabService] at h
      live := by intro r c h; simp [newCollabService] at h
      nodup := by intro r; simp [newCollabService]
      member := by intro r c h; simp [newCollabService] at h }
  owners := by intro sid r h; simp [getRoomByID, newCollabService] at h

theorem RoomInv.getOrCreateRoom (hs : RoomInv u s) (sid : String) :
    RoomInv u (s.getOrCreateRoom sid).2 := by
  rcases getOrCreateRoom_cases s sid with
    ⟨r, -, heq⟩ | ⟨hnone, -, hlook, hroom, hclient, hnextRoom, hnextUuid⟩
  · rw [heq]
    exact hs
  -- the new room is empty and unowned, and the old ones have smaller pointers
  have hold : ∀ {sid' r}, s.getRoomByID sid' = some r → r ≠ s.nextRoom ∧ sid' ≠ sid := by
    intro sid' r hr
    refine ⟨(hs.wf.registered hr).2.ne, ?_⟩
    rintro rfl
    simp [hnone] at hr
  have hmem : ∀ {r c}, c ∈ ((s.getOrCreateRoom sid).2.roomAt r).clients →
      r ≠ s.nextRoom ∧ c ∈ (s.roomAt r).clients := by
    intro r c hc
    rw [hroom] at hc
    by_cases hr : r = s.nextRoom
    · subst hr; simp at hc
    · exact ⟨hr, by simpa [hr] using hc⟩
  constructor
  · constructor
    · intro sid' r hr
      rw [hlook] at hr
      rw [hroom, hnextRoom]
      by_cases hsid : sid' = sid
      · rw [if_pos hsid] at hr
        obtain rfl := Option.some.inj hr
        simp [hsid]
      · rw [if_neg hsid] at hr
        obtain ⟨hr', hlt⟩ := hs.wf.registered hr
        rw [Function.update_of_ne (hold hr).1]
        exact ⟨hr', hlt.trans (Nat.lt_succ_self _)⟩
    · intro r c hc
      obtain ⟨hr, hc⟩ := hmem hc
      have hlive := hs.wf.live hc
      rw [hroom, Function.update_of_ne hr, hlook, if_neg (hold hlive).2]
      exact hlive
    · intro r
      rw [hroom]
      by_cases hr : r = s.nextRoom
      · subst hr; simp
      · simpa [hr] using hs.wf.nodup r
    · intro r c hc
      obtain ⟨hr, hc⟩ := hmem hc
      rw [hroom, hclient, hnextUuid, Function.update_of_ne hr]
      exact hs.wf.member hc
  · intro sid' r hr
    rw [hlook] at hr
    by_cases hsid : sid' = sid
    · rw [if_pos hsid] at hr
      obtain rfl := Option.some.inj hr
      constructor <;> simp [hroom]
    · rw [if_neg hsid] at hr
      have hok := hs.owners hr
      have hroom' : (s.getOrCreateRoom sid).2.roomAt r = s.roomAt r := by
        rw [hroom, Function.update_of_ne (hold hr).1]
      constructor
      · rw [hroom', hclient]
        exact hok.owner
      · rw [hroom', hclient]
        exact hok.flags

/-! ### An accepted join -/

/-- The rooms after an accepted join: the new client is in room `r`, and the room
knows its owner. -/
def enrolled (u : UuidSource) (g : Goroutine) (ctx : Ctx) (join : JoinRoom) (sid : String)
    (r : RoomRef) (s : CollabService) : CollabService :=
  (s.tick.addJoined r (newClient g ctx join sid (s.uuid u) (s.getPeerInfo r))).claimRoom r
    (s.uuid u) join

section Enrolled

variable {g : Goroutine} {ctx : Ctx} {join : JoinRoom} {sid : String} {r : RoomRef}

/-- The rest of a join only sends. -/
theorem SameRooms.accept (s : CollabService) :
    SameRooms (s.enrolled u g ctx join sid r) (s.accept u g ctx join sid r).1 :=
  (((SameRooms.tick _).trans (SameRooms.noteProgress _ _ _)).trans
    (SameRooms.deliverAll g _ _)).trans
    ((SameRooms.tick _).trans (SameRooms.noteProgress _ _ _))

theorem enrolled_roomAt_self (s : CollabService) :
    (s.enrolled u g ctx join sid r).roomAt r =
      { s.roomAt r with
        clients := (s.roomAt r).clients.insert (s.uuid u)
        ownerClientId := if join.isOwner then s.uuid u else (s.roomAt r).ownerClientId
        ownerBrowserId := if join.isOwner then join.browserId else (s.roomAt r).ownerBrowserId
        metadata := if (s.roomAt r).metadata = none then join.metadata else (s.roomAt r).metadata
        title := if (s.roomAt r).title = "" then join.title else (s.roomAt r).title } := by
  simp [enrolled, claimRoom, addJoined, addClient, modifyRoom, tick, newClient]

theorem enrolled_roomAt_of_ne (s : CollabService) {r' : RoomRef} (h : r' ≠ r) :
    (s.enrolled u g ctx join sid r).roomAt r' = s.roomAt r' := by
  simp [enrolled, claimRoom, addJoined, addClient, modifyRoom, tick, h]

theorem enrolled_clientAt (s : CollabService) :
    (s.enrolled u g ctx join sid r).clientAt =
      Function.update s.clientAt (s.uuid u)
        (newClient g ctx join sid (s.uuid u) (s.getPeerInfo r)) := rfl

/-- Membership after a join: the new id in `r`, everyone else where they were. -/
theorem mem_enrolled_clients {s : CollabService} {r' : RoomRef} {c : String}
    (h : c ∈ ((s.enrolled u g ctx join sid r).roomAt r').clients) :
    (r' = r ∧ c = s.uuid u) ∨ c ∈ (s.roomAt r').clients := by
  by_cases hr : r' = r
  · subst hr
    rw [enrolled_roomAt_self] at h
    rcases List.mem_insert_iff.mp h with hc | hc
    · exact Or.inl ⟨rfl, hc⟩
    · exact Or.inr hc
  · rw [enrolled_roomAt_of_ne s hr] at h
    exact Or.inr h

theorem enrolled_sessionId (s : CollabService) (r' : RoomRef) :
    ((s.enrolled u g ctx join sid r).roomAt r').sessionId = (s.roomAt r').sessionId := by
  by_cases hr : r' = r
  · subst hr
    rw [enrolled_roomAt_self]
  · rw [enrolled_roomAt_of_ne s hr]

theorem RoomsWF.enrolled (hs : RoomsWF u s) (hr : s.getRoomByID sid = some r) :
    RoomsWF u (s.enrolled u g ctx join sid r) where
  registered := by
    intro sid' r' h
    rw [enrolled_sessionId]
    exact hs.registered h
  live := by
    intro r' c hc
    rw [enrolled_sessionId]
    rcases mem_enrolled_clients hc with ⟨rfl, -⟩ | hc
    · rw [(hs.registered hr).1]
      exact hr
    · exact hs.live hc
  nodup r' := by
    by_cases hr' : r' = r
    · subst hr'
      rw [enrolled_roomAt_self]
      exact (hs.nodup r').insert
    · rw [enrolled_roomAt_of_ne s hr']
      exact hs.nodup r'
  member := by
    intro r' c hc
    rw [enrolled_sessionId, enrolled_clientAt]
    rcases mem_enrolled_clients hc with ⟨rfl, rfl⟩ | hc
    · rw [Function.update_self, (hs.registered hr).1]
      exact ⟨rfl, rfl, s.nextUuid, Nat.lt_succ_self _, rfl⟩
    · have hne : c ≠ s.uuid u := fun h => hs.uuid_notMem r' (h ▸ hc)
      obtain ⟨hid, hsid, k, hk, hck⟩ := hs.member hc
      rw [Function.update_of_ne hne]
      exact ⟨hid, hsid, k, hk.trans (Nat.lt_succ_self _), hck⟩

/-- A join keeps the owners in order when the room it enters is unowned, or owned
by a tab of the browser the join names. -/
theorem RoomInv.enrolled (hs : RoomInv u s) (hr : s.getRoomByID sid = some r)
    (howner : join.isOwner = true → (s.roomAt r).ownerClientId = "" ∨
      (s.roomAt r).ownerBrowserId = join.browserId) :
    RoomInv u (s.enrolled u g ctx join sid r) where
  wf := hs.wf.enrolled hr
  owners := by
    intro sid' r' hr'
    have hok := hs.owners hr'
    have hclient : ∀ {c}, c ∈ (s.roomAt r').clients →
        (s.enrolled u g ctx join sid r).clientAt c = s.clientAt c := by
      intro c hc
      have hne : c ≠ s.uuid u := fun h => hs.wf.uuid_notMem r' (h ▸ hc)
      rw [enrolled_clientAt, Function.update_of_ne hne]
    by_cases hrr : r' = r
    · subst hrr
      by_cases hflag : join.isOwner = true
      · -- the new client is the owner, under the browser it named
        constructor
        · intro _
          rw [enrolled_roomAt_self, enrolled_clientAt]
          simp [hflag, newClient]
        · intro c hc hcflag
          rw [enrolled_roomAt_self]
          refine ⟨by simpa [hflag, uuid] using u.new_ne_empty _, ?_⟩
          rcases mem_enrolled_clients hc with ⟨-, rfl⟩ | hc
          · simp [enrolled_clientAt, hflag, newClient]
          · rw [hclient hc] at hcflag ⊢
            obtain ⟨hne, hb⟩ := hok.flags hc hcflag
            rcases howner hflag with h | h
            · exact absurd h hne
            · simpa [hflag] using hb.trans h
      · -- the owner stays, and the new client is not flagged
        constructor
        · intro hne
          rw [enrolled_roomAt_self] at hne ⊢
          simp only [hflag, if_false, Bool.false_eq_true] at hne ⊢
          obtain ⟨hmem, hrest⟩ := hok.owner hne
          rw [hclient hmem]
          exact ⟨List.mem_insert_of_mem hmem, hrest⟩
        · intro c hc hcflag
          rw [enrolled_roomAt_self]
          rcases mem_enrolled_clients hc with ⟨-, rfl⟩ | hc
          · simp [enrolled_clientAt, newClient, hflag] at hcflag
          · rw [hclient hc] at hcflag ⊢
            simpa [hflag] using hok.flags hc hcflag
    · constructor
      · intro hne
        rw [enrolled_roomAt_of_ne s hrr] at hne ⊢
        obtain ⟨hmem, hrest⟩ := hok.owner hne
        rw [hclient hmem]
        exact ⟨hmem, hrest⟩
      · intro c hc hcflag
        rw [enrolled_roomAt_of_ne s hrr] at hc ⊢
        rw [hclient hc] at hcflag ⊢
        exact hok.flags hc hcflag

end Enrolled

/-- The checks of a join on its room, one of which refuses it. -/
def refuses (s : CollabService) (join : JoinRoom) (r : RoomRef) : Bool :=
  s.isFull r || (join.isOwner && s.ownedElsewhere r join.browserId) ||
    (((s.declareEncrypted r join).roomAt r).encrypted && join.protocolVersion < 2)

/-- The session a join is for. -/
def joinTarget (u : UuidSource) (s : CollabService) (join : JoinRoom) : String :=
  (s.resolveSession u join).1

/-- The state in which a join looks up its room. -/
def atLookup (u : UuidSource) (s : CollabService) (join : JoinRoom) : CollabService :=
  (s.resolveSession u join).2.indexHint join.clientHint (s.joinTarget u join)

section Join

variable {g : Goroutine} {ctx : Ctx} {join : JoinRoom} {sid : String} {r : RoomRef}

theorem SameRooms.atLookup (s : CollabService) (join : JoinRoom) :
    SameRooms s (s.atLookup u join) :=
  (SameRooms.resolveSession s join).trans (SameRooms.indexHint _ _ _)

/-- A refused join leaves the rooms alone. -/
theorem enterRoom_refused (h : s.refuses join r = true) :
    SameRooms s (s.enterRoom u g ctx join sid r).1 := by
  unfold enterRoom
  split
  · exact SameRooms.tick s
  · split
    · exact SameRooms.refl s
    · dsimp only
      split
      · exact (SameRooms.declareEncrypted s r join).trans (SameRooms.tick _)
      · simp_all [refuses]

/-- A join that no check refuses is admitted. -/
theorem enterRoom_accepted (h : s.refuses join r = false) :
    s.enterRoom u g ctx join sid r = (s.declareEncrypted r join).accept u g ctx join sid r := by
  simp only [refuses, Bool.or_eq_false_iff] at h
  obtain ⟨⟨hfull, howner⟩, henc⟩ := h
  simp only [enterRoom, hfull, howner, henc, Bool.false_eq_true, if_false]

/-- What the checks leave of an accepted owner's join. -/
theorem owner_of_not_refuses (haccept : s.refuses join r = false) (hflag : join.isOwner = true) :
    (s.roomAt r).ownerClientId = "" ∨ (s.roomAt r).ownerBrowserId = join.browserId := by
  simp only [refuses, Bool.or_eq_false_iff] at haccept
  have := haccept.1.2
  simp only [hflag, ownedElsewhere, Bool.true_and, Bool.and_eq_false_iff,
    decide_eq_false_iff_not, not_not] at this
  exact this

/-- A join that its token allows, and whose room exists if it must, comes to the
checks on that room. -/
theorem handleJoin_eq_enterRoom (hallow : allowsRoom ctx join.sessionId = true)
    (hexist : ¬ (join.mustExist &&
      ((s.atLookup u join).getRoomByID (s.joinTarget u join)).isNone) = true) :
    s.handleJoin u g ctx join =
      ((s.atLookup u join).getOrCreateRoom (s.joinTarget u join)).2.enterRoom u g ctx join
        (s.joinTarget u join)
        ((s.atLookup u join).getOrCreateRoom (s.joinTarget u join)).1 := by
  rw [handleJoin, if_neg (by simp [hallow])]
  exact if_neg hexist

/-- A join either stops before it has a room, or goes on to enter one. -/
theorem handleJoin_cases (s : CollabService) (g : Goroutine) (ctx : Ctx) (join : JoinRoom) :
    SameRooms s (s.handleJoin u g ctx join).1 ∨
    (allowsRoom ctx join.sessionId = true ∧
      s.handleJoin u g ctx join =
        ((s.atLookup u join).getOrCreateRoom (s.joinTarget u join)).2.enterRoom u g ctx join
          (s.joinTarget u join)
          ((s.atLookup u join).getOrCreateRoom (s.joinTarget u join)).1) := by
  by_cases hallow : allowsRoom ctx join.sessionId = true
  · by_cases hexist : (join.mustExist &&
        ((s.atLookup u join).getRoomByID (s.joinTarget u join)).isNone) = true
    · left
      have heq : (s.handleJoin u g ctx join).1 = (s.atLookup u join).tick := by
        rw [handleJoin, if_neg (by simp [hallow])]
        exact congrArg Prod.fst (if_pos hexist)
      rw [heq]
      exact (SameRooms.atLookup s join).trans (SameRooms.tick _)
    · right
      exact ⟨hallow, handleJoin_eq_enterRoom hallow hexist⟩
  · left
    rw [handleJoin, if_pos (by simpa using hallow)]
    exact SameRooms.tick s

theorem RoomInv.enterRoom (hs : RoomInv u s) (hr : s.getRoomByID sid = some r) :
    RoomInv u (s.enterRoom u g ctx join sid r).1 := by
  cases hrefuse : s.refuses join r with
  | true => exact hs.of_sameRooms (enterRoom_refused hrefuse)
  | false =>
    rw [enterRoom_accepted hrefuse]
    have henc := SameRooms.declareEncrypted s r join
    refine RoomInv.of_sameRooms (SameRooms.accept _) ((hs.of_sameRooms henc).enrolled ?_ ?_)
    · rw [henc.getRoomByID]
      exact hr
    · intro hflag
      rw [henc.ownerClientId, henc.ownerBrowserId]
      exact owner_of_not_refuses hrefuse hflag

theorem RoomInv.handleJoin (hs : RoomInv u s) : RoomInv u (s.handleJoin u g ctx join).1 := by
  rcases handleJoin_cases s g ctx join with h | ⟨-, h⟩
  · exact hs.of_sameRooms h
  · rw [h]
    exact RoomInv.enterRoom ((hs.of_sameRooms (SameRooms.atLookup s join)).getOrCreateRoom _)
      (getOrCreateRoom_registered _ _)

end Join

/-! ### Leaving -/

section Leave

variable {g : Goroutine} {c : String} {r : RoomRef} {sid : String}

theorem removeLeft_roomAt_self (s : CollabService) :
    (s.removeLeft r c).roomAt r = { s.roomAt r with clients := (s.roomAt r).clients.erase c } := by
  simp [removeLeft, removeClient, modifyRoom]

theorem removeLeft_roomAt_of_ne (s : CollabService) {r' : RoomRef} (h : r' ≠ r) :
    (s.removeLeft r c).roomAt r' = s.roomAt r' := by
  simp [removeLeft, removeClient, modifyRoom, h]

theorem removeLeft_clientCount (s : CollabService) :
    (s.removeLeft r c).clientCount r = ((s.roomAt r).clients.erase c).length := by
  rw [clientCount, removeLeft_roomAt_self]

theorem mem_removeLeft_clients {r' : RoomRef} {c' : String}
    (h : c' ∈ ((s.removeLeft r c).roomAt r').clients) : c' ∈ (s.roomAt r').clients := by
  by_cases hr : r' = r
  · subst hr
    rw [removeLeft_roomAt_self] at h
    exact List.mem_of_mem_erase h
  · rwa [removeLeft_roomAt_of_ne s hr] at h

theorem RoomsWF.removeLeft (hs : RoomsWF u s) : RoomsWF u (s.removeLeft r c) := by
  have hsid : ∀ r', ((s.removeLeft r c).roomAt r').sessionId = (s.roomAt r').sessionId := by
    intro r'
    by_cases hr : r' = r
    · subst hr; rw [removeLeft_roomAt_self]
    · rw [removeLeft_roomAt_of_ne s hr]
  constructor
  · intro sid r' h
    rw [hsid]
    exact hs.registered h
  · intro r' c' h
    rw [hsid]
    exact hs.live (mem_removeLeft_clients h)
  · intro r'
    by_cases hr : r' = r
    · subst hr
      rw [removeLeft_roomAt_self]
      exact (hs.nodup r').erase c
    · rw [removeLeft_roomAt_of_ne s hr]
      exact hs.nodup r'
  · intro r' c' h
    rw [hsid]
    exact hs.member (mem_removeLeft_clients h)

/-- The other rooms do not notice a removal. -/
theorem OwnerOK.removeLeft_of_ne {r' : RoomRef} (hs : OwnerOK s r') (h : r' ≠ r) :
    OwnerOK (s.removeLeft r c) r' := by
  constructor
  · rw [removeLeft_roomAt_of_ne s h]
    exact hs.owner
  · rw [removeLeft_roomAt_of_ne s h]
    exact hs.flags

/-- Removing a client that is not the owner keeps the owner in order. -/
theorem OwnerOK.removeLeft (hs : OwnerOK s r) (hnodup : (s.roomAt r).clients.Nodup)
    (hc : (s.roomAt r).ownerClientId ≠ "" → (s.roomAt r).ownerClientId ≠ c) :
    OwnerOK (s.removeLeft r c) r := by
  constructor
  · rw [removeLeft_roomAt_self]
    intro hne
    obtain ⟨hmem, hrest⟩ := hs.owner hne
    exact ⟨(hnodup.mem_erase_iff).mpr ⟨hc hne, hmem⟩, hrest⟩
  · rw [removeLeft_roomAt_self]
    intro c' hc' hflag
    exact hs.flags (List.mem_of_mem_erase hc') hflag

/-- `removeRoom` of a registered room: it goes exactly when it is empty. -/
theorem removeRoom_eq (hr : s.getRoomByID sid = some r) :
    (s.isEmpty r = false ∧ s.removeRoom sid = s) ∨
    (s.isEmpty r = true ∧
      (∀ sid', (s.removeRoom sid).getRoomByID sid' =
        if sid' = sid then none else s.getRoomByID sid') ∧
      (s.removeRoom sid).roomAt = s.roomAt ∧ (s.removeRoom sid).clientAt = s.clientAt ∧
      (s.removeRoom sid).nextRoom = s.nextRoom ∧ (s.removeRoom sid).nextUuid = s.nextUuid ∧
      (s.removeRoom sid).sent = s.sent) := by
  unfold getRoomByID at hr
  unfold removeRoom
  rw [hr]
  cases hempty : s.isEmpty r with
  | false => exact Or.inl ⟨rfl, by simp [hempty]⟩
  | true =>
    refine Or.inr ⟨rfl, ?_, ?_⟩
    · intro sid'
      by_cases hsid : sid' = sid
      · subst hsid
        simp [hempty, getRoomByID]
      · simp [hempty, getRoomByID, AList.lookup_erase_ne hsid, hsid]
    · simp [hempty]

/-- Unregistering an emptied room: only the other rooms need their owners in order. -/
theorem RoomsWF.removeRoom (hs : RoomsWF u s) (hr : s.getRoomByID sid = some r)
    (hempty : (s.roomAt r).clients = [])
    (howners : ∀ {sid' r'}, s.getRoomByID sid' = some r' → r' ≠ r → OwnerOK s r') :
    RoomInv u (s.removeRoom sid) := by
  rcases removeRoom_eq hr with ⟨h, -⟩ | ⟨-, hlook, hroom, hclient, hnextRoom, hnextUuid, -⟩
  · simp [isEmpty, hempty] at h
  -- the sessions still registered are the others
  have hkeep : ∀ {sid' r'}, (s.removeRoom sid).getRoomByID sid' = some r' →
      sid' ≠ sid ∧ s.getRoomByID sid' = some r' := by
    intro sid' r' h
    rw [hlook] at h
    by_cases hsid : sid' = sid
    · simp [hsid] at h
    · exact ⟨hsid, by simpa [hsid] using h⟩
  constructor
  · constructor
    · intro sid' r' h
      rw [hroom, hnextRoom]
      exact hs.registered (hkeep h).2
    · intro r' c' h
      rw [hroom] at h ⊢
      have hlive := hs.live h
      -- a room with clients is not the one that goes, which is empty
      have hsid : (s.roomAt r').sessionId ≠ sid := by
        intro hsid
        rw [hsid, hr] at hlive
        obtain rfl := Option.some.inj hlive
        simp [hempty] at h
      rw [hlook, if_neg hsid]
      exact hlive
    · intro r'
      rw [hroom]
      exact hs.nodup r'
    · intro r' c' h
      rw [hroom] at h
      rw [hroom, hclient, hnextUuid]
      exact hs.member h
  · intro sid' r' h
    obtain ⟨hsid, hr'⟩ := hkeep h
    have hne : r' ≠ r := by
      rintro rfl
      exact hsid ((hs.registered hr').1.symm.trans (hs.registered hr).1)
    have hok := howners hr' hne
    constructor
    · rw [hroom, hclient]
      exact hok.owner
    · rw [hroom, hclient]
      exact hok.flags

/-- The successor is a remaining client of the leaver's browser. -/
theorem findSuccessor_eq_some {b : String} {pick : Nat} {successor : String}
    (h : s.findSuccessor r b c pick = some successor) :
    b ≠ "" ∧ successor ∈ (s.roomAt r).clients ∧ (s.clientAt successor).browserId = b := by
  unfold findSuccessor at h
  split at h
  · rename_i hb
    have hmem := List.mem_of_getElem? h
    simp only [sameBrowser, List.mem_filter, decide_eq_true_eq] at hmem
    exact ⟨hb, hmem.1, hmem.2.2⟩
  · simp at h

/-- No successor means that no remaining client could be one. -/
theorem findSuccessor_eq_none {b : String} {pick : Nat} (h : s.findSuccessor r b c pick = none)
    {c' : String} (hc' : c' ∈ (s.roomAt r).clients) (hne : (s.clientAt c').info.clientId ≠ c) :
    ¬ (b ≠ "" ∧ (s.clientAt c').browserId = b) := by
  rintro ⟨hb, hc'b⟩
  rw [findSuccessor, if_pos hb] at h
  have hmem : c' ∈ s.sameBrowser r b c := by simp [sameBrowser, hc', hne, hc'b]
  have hlen := List.length_pos_of_mem hmem
  rw [findByBrowserId, List.getElem?_eq_none_iff] at h
  exact absurd (Nat.mod_lt pick hlen) (by omega)

theorem transferOwner_roomAt_self (s : CollabService) (successor : String) :
    (s.transferOwner r successor).roomAt r =
      { s.roomAt r with ownerClientId := (s.clientAt successor).info.clientId } := by
  simp [transferOwner, modifyRoom, modifyClient]

theorem transferOwner_roomAt_of_ne (s : CollabService) (successor : String) {r' : RoomRef}
    (h : r' ≠ r) : (s.transferOwner r successor).roomAt r' = s.roomAt r' := by
  simp [transferOwner, modifyRoom, modifyClient, h]

theorem transferOwner_clientAt_self (s : CollabService) (successor : String) :
    (s.transferOwner r successor).clientAt successor =
      { s.clientAt successor with
        info := { (s.clientAt successor).info with isOwner := true } } := by
  simp [transferOwner, modifyRoom, modifyClient]

theorem transferOwner_clientAt_of_ne (s : CollabService) {successor c' : String}
    (h : c' ≠ successor) : (s.transferOwner r successor).clientAt c' = s.clientAt c' := by
  simp [transferOwner, modifyRoom, modifyClient, h]

theorem transferOwner_clients (s : CollabService) (successor : String) (r' : RoomRef) :
    ((s.transferOwner r successor).roomAt r').clients = (s.roomAt r').clients ∧
    ((s.transferOwner r successor).roomAt r').sessionId = (s.roomAt r').sessionId := by
  by_cases hr : r' = r
  · subst hr; rw [transferOwner_roomAt_self]; exact ⟨rfl, rfl⟩
  · rw [transferOwner_roomAt_of_ne s _ hr]; exact ⟨rfl, rfl⟩

theorem transferOwner_client (s : CollabService) (successor c' : String) :
    ((s.transferOwner r successor).clientAt c').info.clientId = (s.clientAt c').info.clientId ∧
    ((s.transferOwner r successor).clientAt c').sessionId = (s.clientAt c').sessionId ∧
    ((s.transferOwner r successor).clientAt c').browserId = (s.clientAt c').browserId := by
  by_cases hc : c' = successor
  · subst hc; rw [transferOwner_clientAt_self]; exact ⟨rfl, rfl, rfl⟩
  · rw [transferOwner_clientAt_of_ne s hc]; exact ⟨rfl, rfl, rfl⟩

theorem RoomsWF.transferOwner (hs : RoomsWF u s) (successor : String) :
    RoomsWF u (s.transferOwner r successor) where
  registered := by
    intro sid r' h
    rw [(transferOwner_clients s successor r').2]
    exact hs.registered h
  live := by
    intro r' c' h
    rw [(transferOwner_clients s successor r').1] at h
    rw [(transferOwner_clients s successor r').2]
    exact hs.live h
  nodup r' := by
    rw [(transferOwner_clients s successor r').1]
    exact hs.nodup r'
  member := by
    intro r' c' h
    rw [(transferOwner_clients s successor r').1] at h
    rw [(transferOwner_clients s successor r').2, (transferOwner_client s successor c').1,
      (transferOwner_client s successor c').2.1]
    exact hs.member h

/-- Ownership moves to a tab of the browser the room knows as its owner's. -/
theorem OwnerOK.transferOwner {successor : String} (hwf : RoomsWF u s)
    (hmem : successor ∈ (s.roomAt r).clients)
    (hb : (s.clientAt successor).browserId = (s.roomAt r).ownerBrowserId)
    (hflags : ∀ {c'}, c' ∈ (s.roomAt r).clients → (s.clientAt c').info.isOwner = true →
      (s.clientAt c').browserId = (s.roomAt r).ownerBrowserId) :
    OwnerOK (s.transferOwner r successor) r := by
  have hid : (s.clientAt successor).info.clientId = successor := (hwf.member hmem).1
  have hne : successor ≠ "" := by
    obtain ⟨-, -, k, -, rfl⟩ := hwf.member hmem
    exact u.new_ne_empty k
  constructor
  · intro _
    rw [transferOwner_roomAt_self]
    simp only [hid]
    rw [transferOwner_clientAt_self]
    exact ⟨hmem, rfl, hb⟩
  · intro c' hc' hflag
    rw [transferOwner_roomAt_self] at hc' ⊢
    simp only [hid]
    refine ⟨hne, ?_⟩
    rw [(transferOwner_client s successor c').2.2]
    by_cases hcs : c' = successor
    · rw [hcs]
      exact hb
    · rw [transferOwner_clientAt_of_ne s hcs] at hflag
      exact hflags hc' hflag

theorem OwnerOK.transferOwner_of_ne {successor : String} {r' : RoomRef} (hwf : RoomsWF u s)
    (hs : OwnerOK s r') (hmem : successor ∈ (s.roomAt r).clients) (h : r' ≠ r) :
    OwnerOK (s.transferOwner r successor) r' := by
  have hclient : ∀ {c'}, c' ∈ (s.roomAt r').clients →
      (s.transferOwner r successor).clientAt c' = s.clientAt c' := by
    intro c' hc'
    refine transferOwner_clientAt_of_ne s ?_
    rintro rfl
    exact h (hwf.room_unique hc' hmem)
  constructor
  · rw [transferOwner_roomAt_of_ne s _ h]
    intro hne
    obtain ⟨hown, hrest⟩ := hs.owner hne
    rw [hclient hown]
    exact ⟨hown, hrest⟩
  · rw [transferOwner_roomAt_of_ne s _ h]
    intro c' hc' hflag
    rw [hclient hc'] at hflag ⊢
    exact hs.flags hc' hflag

/-- What a leave does, by the branch it takes: the room is ended for everyone, or
the leaver is announced, after a transfer of ownership if there is one. -/
inductive LeaveCase (u : UuidSource) (g : Goroutine) (c reason : String) (r : RoomRef)
    (s s' : CollabService) : Prop
  /-- Nobody but the leaver is concerned. -/
  | plain : ((s.clientAt c).info.isOwner = false ∨ (s.roomAt r).clients.erase c = []) →
      s' = ((s.removeLeft r c).announceLeft u g c reason r
        ((s.removeLeft r c).clientCount r)).1 →
      LeaveCase u g c reason r s s'
  | ended (pick : Nat) : (s.clientAt c).info.isOwner = true →
      (s.roomAt r).clients.erase c ≠ [] →
      (s.removeLeft r c).findSuccessor r (s.clientAt c).browserId c pick = none →
      s' = ((s.removeLeft r c).endRoom u g c r).1 →
      LeaveCase u g c reason r s s'
  | moved (pick : Nat) (successor : String) : (s.clientAt c).info.isOwner = true →
      (s.roomAt r).clients.erase c ≠ [] →
      (s.removeLeft r c).findSuccessor r (s.clientAt c).browserId c pick = some successor →
      s' = ((((s.removeLeft r c).transferOwner r successor).tick.broadcastToAll g r
        (((s.removeLeft r c).transferOwner r successor).ownerChangedEvent
          (((s.removeLeft r c).transferOwner r successor).uuid u) c successor)).announceLeft u g c
            reason r ((s.removeLeft r c).clientCount r)).1 →
      LeaveCase u g c reason r s s'

theorem handleLeave_cases (leave : LeaveRoom) (pick : Nat)
    (hfind : s.findRoomForClient c = some r) :
    LeaveCase u g c leave.reason r s (s.handleLeave u g c leave pick).1 := by
  have hc := (findRoomForClient_eq_some hfind).2
  have hflags : s.leaverFlags r c = ((s.clientAt c).info.isOwner, (s.clientAt c).browserId) :=
    if_pos hc
  have hcount : 0 < (s.removeLeft r c).clientCount r ↔ (s.roomAt r).clients.erase c ≠ [] := by
    rw [removeLeft_clientCount, List.length_pos_iff]
  unfold handleLeave
  rw [hfind]
  dsimp only
  rw [hflags]
  dsimp only
  split
  · rename_i hbranch
    simp only [Bool.and_eq_true, decide_eq_true_eq, gt_iff_lt, hcount] at hbranch
    cases hsucc : (s.removeLeft r c).findSuccessor r (s.clientAt c).browserId c pick with
    | none => exact .ended pick hbranch.1 hbranch.2 hsucc rfl
    | some successor => exact .moved pick successor hbranch.1 hbranch.2 hsucc rfl
  · rename_i hbranch
    refine .plain ?_ rfl
    simp only [Bool.and_eq_true, decide_eq_true_eq, gt_iff_lt, hcount, not_and_or, not_not,
      Bool.not_eq_true] at hbranch
    exact hbranch

/-- Announcing a leaver keeps the invariant when the rest of the room is in order,
or when there is no rest. -/
theorem RoomInv.announceLeft {reason : String} {n : Nat} (hwf : RoomsWF u s)
    (hr : s.getRoomByID sid = some r) (hn : n = s.clientCount r)
    (hothers : ∀ {sid' r'}, s.getRoomByID sid' = some r' → r' ≠ r → OwnerOK s r')
    (hroom : n ≠ 0 → OwnerOK s r) :
    RoomInv u (s.announceLeft u g c reason r n).1 := by
  unfold CollabService.announceLeft
  dsimp only
  have hsame : SameRooms s (s.tick.broadcastToAll g r (peerLeftEvent (s.uuid u) c reason n)) :=
    (SameRooms.tick s).trans (SameRooms.deliverAll g _ _)
  refine RoomInv.of_sameRooms (SameRooms.tick _) ?_
  split
  · rename_i hzero
    refine RoomsWF.removeRoom (r := r) (hwf.of_sameRooms hsame) ?_ ?_ ?_
    · rw [hsame.getRoomByID, hsame.sessionId, (hwf.registered hr).1]
      exact hr
    · rw [hsame.clients]
      exact List.eq_nil_of_length_eq_zero (hn.symm.trans hzero)
    · intro sid' r' hr' hne
      rw [hsame.getRoomByID] at hr'
      exact (hothers hr' hne).of_sameRooms hsame
  · rename_i hpos
    refine ⟨hwf.of_sameRooms hsame, ?_⟩
    intro sid' r' hr'
    rw [hsame.getRoomByID] at hr'
    by_cases hrr : r' = r
    · subst hrr
      exact (hroom hpos).of_sameRooms hsame
    · exact (hothers hr' hrr).of_sameRooms hsame

/-- The rooms of a session that ends: `r` is emptied and goes. -/
theorem RoomInv.endRoom (hwf : RoomsWF u s) (hr : s.getRoomByID sid = some r)
    (hothers : ∀ {sid' r'}, s.getRoomByID sid' = some r' → r' ≠ r → OwnerOK s r') :
    RoomInv u (s.endRoom u g c r).1 := by
  unfold CollabService.endRoom closeAllClients
  dsimp only
  -- before the room is emptied, the end only sends and closes channels
  have hsame : SameRooms s (((s.tick.broadcastToAll g r
      (ownerDisconnectedEvent (s.uuid u) c)).roomAt r).clients.foldl closeClient
        (s.tick.broadcastToAll g r (ownerDisconnectedEvent (s.uuid u) c))) :=
    ((SameRooms.tick s).trans (SameRooms.deliverAll g _ _)).trans (SameRooms.closeClients _ _)
  generalize ((s.tick.broadcastToAll g r (ownerDisconnectedEvent (s.uuid u) c)).roomAt
    r).clients.foldl closeClient _ = s₁ at hsame ⊢
  have hempty : ((s₁.modifyRoom r fun room => { room with clients := [] }).roomAt r).clients = [] :=
    by simp [modifyRoom]
  have hne : ∀ {r'}, r' ≠ r →
      (s₁.modifyRoom r fun room => { room with clients := [] }).roomAt r' = s₁.roomAt r' := by
    intro r' h
    simp [modifyRoom, h]
  have hsid : ∀ r', ((s₁.modifyRoom r fun room => { room with clients := [] }).roomAt r').sessionId
      = (s₁.roomAt r').sessionId := by
    intro r'
    by_cases h : r' = r
    · subst h; simp [modifyRoom]
    · rw [hne h]
  have hmem : ∀ {r' c'},
      c' ∈ ((s₁.modifyRoom r fun room => { room with clients := [] }).roomAt r').clients →
      c' ∈ (s₁.roomAt r').clients := by
    intro r' c' hc'
    by_cases h : r' = r
    · subst h; rw [hempty] at hc'; simp at hc'
    · rwa [hne h] at hc'
  have hwf₁ := hwf.of_sameRooms hsame
  -- emptying the room breaks nothing but the order of its own owner
  have hwf₂ : RoomsWF u (s₁.modifyRoom r fun room => { room with clients := [] }) := by
    constructor
    · intro sid' r' h
      rw [hsid]
      exact hwf₁.registered h
    · intro r' c' h
      rw [hsid]
      exact hwf₁.live (hmem h)
    · intro r'
      by_cases h : r' = r
      · subst h; rw [hempty]; exact List.nodup_nil
      · rw [hne h]; exact hwf₁.nodup r'
    · intro r' c' h
      rw [hsid]
      exact hwf₁.member (hmem h)
  have hr₁ : s₁.getRoomByID (s₁.roomAt r).sessionId = some r := by
    rw [hsame.getRoomByID, hsame.sessionId, (hwf.registered hr).1]
    exact hr
  refine RoomInv.of_sameRooms (SameRooms.tick _) (RoomsWF.removeRoom (r := r) hwf₂ ?_ hempty ?_)
  · rw [hsid]
    exact hr₁
  · intro sid' r' hr' hrr
    have hr'' : s.getRoomByID sid' = some r' := (hsame.getRoomByID sid').symm.trans hr'
    have hok := (hothers hr'' hrr).of_sameRooms hsame
    constructor
    · rw [hne hrr]
      exact hok.owner
    · rw [hne hrr]
      exact hok.flags

theorem RoomInv.handleLeave {leave : LeaveRoom} {pick : Nat} (hs : RoomInv u s) :
    RoomInv u (s.handleLeave u g c leave pick).1 := by
  cases hfind : s.findRoomForClient c with
  | none =>
    unfold CollabService.handleLeave
    rw [hfind]
    exact hs
  | some r =>
    obtain ⟨⟨sid, hr⟩, hc⟩ := findRoomForClient_eq_some hfind
    have hok := hs.owners hr
    have hwf₁ : RoomsWF u (s.removeLeft r c) := hs.wf.removeLeft
    have hothers : ∀ {sid' r'}, (s.removeLeft r c).getRoomByID sid' = some r' → r' ≠ r →
        OwnerOK (s.removeLeft r c) r' :=
      fun hr' hne => (hs.owners hr').removeLeft_of_ne hne
    cases handleLeave_cases (u := u) (g := g) leave pick hfind with
    | plain hplain heq =>
      rw [heq]
      refine RoomInv.announceLeft hwf₁ hr rfl hothers fun hn => ?_
      refine hok.removeLeft (hs.wf.nodup r) fun hne howner => ?_
      -- the owner is flagged, so the other reason for a plain leave applies
      rcases hplain with hflag | hlast
      · have := (hok.owner hne).2.1
        rw [howner, hflag] at this
        simp at this
      · rw [removeLeft_clientCount, hlast] at hn
        simp at hn
    | ended pick hflag hrest hsucc heq =>
      rw [heq]
      exact RoomInv.endRoom hwf₁ hr hothers
    | moved pick successor hflag hrest hsucc heq =>
      rw [heq]
      obtain ⟨-, hmem, hb⟩ := findSuccessor_eq_some hsucc
      obtain ⟨-, hcb⟩ := hok.flags hc hflag
      have hsame : ∀ e, SameRooms ((s.removeLeft r c).transferOwner r successor)
          (((s.removeLeft r c).transferOwner r successor).tick.broadcastToAll g r e) :=
        fun e => (SameRooms.tick _).trans (SameRooms.deliverAll g _ _)
      refine RoomInv.announceLeft ((hwf₁.transferOwner successor).of_sameRooms (hsame _))
        (((hsame _).getRoomByID sid).trans hr) ?_ ?_ ?_
      · rw [clientCount, clientCount, (hsame _).clients, (transferOwner_clients _ _ _).1]
      · intro sid' r' hr' hne
        rw [(hsame _).getRoomByID] at hr'
        exact ((hothers hr' hne).transferOwner_of_ne hwf₁ hmem hne).of_sameRooms (hsame _)
      · intro _
        refine (OwnerOK.transferOwner hwf₁ hmem ?_ ?_).of_sameRooms (hsame _)
        · rw [removeLeft_roomAt_self]
          exact hb.trans hcb
        · intro c' hc' hc'flag
          rw [removeLeft_roomAt_self]
          exact (hok.flags (mem_removeLeft_clients hc') hc'flag).2

end Leave

/-! ### Every run -/

theorem RoomInv.serve (hs : RoomInv u s) (req : Request) : RoomInv u (s.serve u req) := by
  cases req with
  | receive c => exact hs.of_sameRooms (SameRooms.receive s c)
  | deliverAppMessage g sid c msg =>
      exact hs.of_sameRooms (SameRooms.deliverAppMessage g sid c msg s)
  | handle g ctx a pick =>
    simp only [CollabService.serve, handleAction]
    split
    · exact hs.handleJoin
    · exact hs.handleLeave
    · exact hs.of_sameRooms (SameRooms.handlePresence g _ _ s)
    · exact hs.of_sameRooms (SameRooms.handleBroadcast g _ _ s)
    · exact hs

/-- The invariant holds in every state a run of requests reaches. -/
theorem RoomInv.serveAll (maxPeers : Int) (reqs : List Request) :
    RoomInv u (serveAll u (newCollabService maxPeers) reqs) := by
  have hrun : ∀ (reqs : List Request) (s : CollabService), RoomInv u s →
      RoomInv u (MassRelay.serveAll u s reqs) := by
    intro reqs
    induction reqs with
    | nil => intro s hs; exact hs
    | cons req reqs ih => intro s hs; exact ih _ (hs.serve req)
  exact hrun reqs _ (RoomInv.new maxPeers)

end CollabService

end MassRelay

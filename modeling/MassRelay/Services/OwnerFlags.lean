import MassRelay.Lib.History
import MassRelay.Services.Traffic

/-!
# MassRelay.Services.OwnerFlags

Which client of a room is the owner, by its `OwnerClientId` and by the flags its peers see.

The owner that a room names is always one of its clients, and flagged (`owner_isLive`).
The converse fails: an owner's join sets the flag of the new client and leaves that of the
owner before it, so from the second owner join on the room shows two owners
(`OneFlag.serve_iff`). A transfer does the room no harm, since the flag it leaves behind goes with
the client.
-/

namespace MassRelay

namespace CollabService

variable {u : UuidSource} {s s' : CollabService} {g : Goroutine} {ctx : Ctx} {join : JoinRoom}
variable {r : RoomRef} {sid : String}

/-! ### The owner pointer -/

/-- In every run, the owner of a room is a client of it, flagged and of the owner's browser;
and a room without one shows none. -/
theorem owner_isLive (u : UuidSource) (maxPeers : Int) (reqs : List Request) (sid : String)
    (r : RoomRef)
    (hr : (serveAll u (newCollabService maxPeers) reqs).getRoomByID sid = some r) :
    let s := serveAll u (newCollabService maxPeers) reqs
    ((s.roomAt r).ownerClientId ≠ "" →
      (s.roomAt r).ownerClientId ∈ (s.roomAt r).clients ∧
      (s.clientAt (s.roomAt r).ownerClientId).info.isOwner = true ∧
      (s.clientAt (s.roomAt r).ownerClientId).browserId = (s.roomAt r).ownerBrowserId) ∧
    ((s.roomAt r).ownerClientId = "" →
      ∀ c ∈ (s.roomAt r).clients, (s.clientAt c).info.isOwner = false) := by
  intro s
  have hok : OwnerOK s r := (RoomInv.serveAll maxPeers reqs).owners hr
  refine ⟨hok.owner, fun hnone c hc => ?_⟩
  by_contra hflag
  exact (hok.flags hc (Bool.eq_true_of_not_eq_false hflag)).1 hnone

theorem owner_isLive_join :
    let s := serveAll .unary (newCollabService 10) [joinS1 true "b1", joinS1 false "b2"]
    ((s.roomAt 0).ownerClientId ≠ "" →
      (s.roomAt 0).ownerClientId ∈ (s.roomAt 0).clients ∧
      (s.clientAt (s.roomAt 0).ownerClientId).info.isOwner = true ∧
      (s.clientAt (s.roomAt 0).ownerClientId).browserId = (s.roomAt 0).ownerBrowserId) ∧
    ((s.roomAt 0).ownerClientId = "" →
      ∀ c ∈ (s.roomAt 0).clients, (s.clientAt c).info.isOwner = false) :=
  owner_isLive .unary 10 [joinS1 true "b1", joinS1 false "b2"] "s1" 0 (by decide)

/-! ### What the peers are shown -/

/-- `(r *CollabRoom) ToProto`. -/
def toProto (s : CollabService) (r : RoomRef) : Room where
  sessionId := (s.roomAt r).sessionId
  peers := s.getPeerInfo r
  ownerClientId := (s.roomAt r).ownerClientId
  metadata := (s.roomAt r).metadata
  encrypted := (s.roomAt r).encrypted
  title := (s.roomAt r).title

/-- `GetRoom`; `none` is its error for a session without a room. -/
def getRoom (s : CollabService) (sessionId : String) : Option Room :=
  (s.getRoomByID sessionId).map s.toProto

/-- Whom a map of peers shows as owner, if anyone, is one peer. -/
def ShowsOneOwner (peers : List (String × PeerInfo)) : Prop :=
  ∀ p ∈ peers, ∀ q ∈ peers, p.2.isOwner = true → q.2.isOwner = true → p.1 = q.1

/-- The only client of a room that may be flagged as owner is the one the room names. -/
def OneFlag (s : CollabService) : Prop :=
  ∀ sid r c, s.getRoomByID sid = some r → c ∈ (s.roomAt r).clients →
    (s.clientAt c).info.isOwner = true → c = (s.roomAt r).ownerClientId

/-- At most one client of each room is flagged as owner, the one that the room names, and
neither `GetRoom` nor the answer to a join shows two. -/
structure OneOwner (u : UuidSource) (s : CollabService) : Prop where
  flagged : OneFlag s
  getRoom : ∀ sid room, s.getRoom sid = some room → ShowsOneOwner room.peers
  roomJoined : ∀ g ctx join e w, (s.handleJoin u g ctx join).2 = .event e →
    e.event = .roomJoined w → ShowsOneOwner w.room.peers

/-- A join as owner that is accepted into a room with an owner. -/
def SecondOwner (u : UuidSource) (s : CollabService) : Request → Prop
  | .handle _ ctx { action := some (.join join), .. } _ =>
    join.isOwner = true ∧ allowsRoom ctx join.sessionId = true ∧
      ∃ r, s.getRoomByID (s.joinTarget u join) = some r ∧ (s.roomAt r).ownerClientId ≠ "" ∧
        s.refuses join r = false
  | _ => False

/-- A map of a room's clients shows who is flagged. -/
theorem OneFlag.shows (hs : OneFlag s) (hr : s.getRoomByID sid = some r) :
    ShowsOneOwner (s.getPeerInfo r) := by
  intro p hp q hq hpo hqo
  obtain ⟨c, hc, rfl⟩ := List.mem_map.mp hp
  obtain ⟨c', hc', rfl⟩ := List.mem_map.mp hq
  exact (hs sid r c hr hc hpo).trans (hs sid r c' hr hc' hqo).symm

theorem OneFlag.congr (h : SameRooms s s') : OneFlag s' ↔ OneFlag s := by
  simp only [OneFlag, h.getRoomByID, h.clients, h.info, h.ownerClientId]

theorem OneFlag.of_sameRooms (h : SameRooms s s') (hs : OneFlag s) : OneFlag s' :=
  (OneFlag.congr h).mpr hs

/-- The answer to a join shows the clients of a room as they were when it came. -/
theorem OneFlag.roomJoined {e : CollabEvent} {w : RoomJoined} (hs : OneFlag s)
    (hanswer : (s.handleJoin u g ctx join).2 = .event e) (he : e.event = .roomJoined w) :
    ShowsOneOwner w.room.peers := by
  have hrefused : ∀ {a : Answer}, a.refuses = true → a = .event e → False := by
    rintro a ha rfl
    obtain ⟨eventId, fromClientId, event⟩ := e
    obtain rfl : event = .roomJoined w := he
    simp [Answer.refuses] at ha
  have hwelcome : ∀ {s₀ : CollabService} {sid : String} {r : RoomRef},
      (s₀.accept u g ctx join sid r).2 = .event e → w.room.peers = s₀.getPeerInfo r := by
    intro s₀ sid r haccept
    obtain ⟨e', heq, he'⟩ := accept_answer u g ctx join sid r s₀
    obtain rfl : e' = e := Answer.event.inj (heq.symm.trans haccept)
    obtain rfl := Event.roomJoined.inj (he'.symm.trans he)
    rfl
  have hcase := handleJoin_case (u := u) s g ctx join
  generalize s.handleJoin u g ctx join = result at hcase hanswer
  cases hcase with
  | forbidden e' _ he' => exact (hrefused he' hanswer).elim
  | lost e' _ _ he' => exact (hrefused he' hanswer).elim
  | turnedAway r _ _ hrefuse =>
    exact (hrefused (enterRoom_answer_refuses.trans ((atLookup_refuses s r).trans hrefuse))
      hanswer).elim
  | createdRefused _ _ _ hrefuse =>
    exact (hrefused (enterRoom_answer_refuses.trans hrefuse) hanswer).elim
  | joined r _ hr _ =>
    have hsame : SameRooms s ((s.atLookup u join).declareEncrypted r join) :=
      (SameRooms.atLookup s join).trans (SameRooms.declareEncrypted _ r join)
    rw [hwelcome hanswer]
    exact (hs.of_sameRooms hsame).shows ((hsame.getRoomByID _).trans hr)
  | created _ hr _ _ =>
    rw [hwelcome hanswer]
    have hempty : (((s.atCreated u join).declareEncrypted s.nextRoom join).roomAt
        s.nextRoom).clients = [] := by
      rw [(SameRooms.declareEncrypted _ _ join).clients, (atCreated_eq hr).2.2.1,
        Function.update_self]
    intro p hp
    simp [getPeerInfo, hempty] at hp

theorem oneOwner_iff : OneOwner u s ↔ OneFlag s := by
  refine ⟨fun h => h.flagged, fun h => ⟨h, ?_, fun _ _ _ _ _ hanswer he => ?_⟩⟩
  · intro sid room hroom
    obtain ⟨r, hr, rfl⟩ := Option.map_eq_some_iff.mp hroom
    exact h.shows hr
  · exact h.roomJoined hanswer he

/-! ### One request -/

/-- A join shows a second owner exactly when it makes one. -/
theorem OneFlag.enrolled_iff (hs : RoomInv u s) (hone : OneFlag s)
    (hr : s.getRoomByID sid = some r) :
    OneFlag (s.enrolled u g ctx join sid r) ↔
      ¬ (join.isOwner = true ∧ (s.roomAt r).ownerClientId ≠ "") := by
  have hclient : ∀ {r' c}, c ∈ (s.roomAt r').clients →
      (s.enrolled u g ctx join sid r).clientAt c = s.clientAt c := by
    intro r' c hc
    have hne : c ≠ s.uuid u := fun h => hs.wf.uuid_notMem r' (h ▸ hc)
    rw [enrolled_clientAt, Function.update_of_ne hne]
  constructor
  · rintro h ⟨hflag, howned⟩
    obtain ⟨hmem, hold, -⟩ := (hs.owners hr).owner howned
    -- the owner before is still there, and still flagged
    have howner := h sid r (s.roomAt r).ownerClientId hr
      (by rw [enrolled_roomAt_self]; exact List.mem_insert_of_mem hmem)
      (by rw [hclient hmem]; exact hold)
    simp only [enrolled_roomAt_self, if_pos hflag] at howner
    rw [howner] at hmem
    exact hs.wf.uuid_notMem r hmem
  · intro hnot sid' r' c hr' hc hcflag
    by_cases hrr : r' = r
    · subst hrr
      rw [enrolled_roomAt_self]
      by_cases hflag : join.isOwner = true
      · have hnone : (s.roomAt r').ownerClientId = "" := by
          by_contra howned
          exact hnot ⟨hflag, howned⟩
        rw [if_pos hflag]
        rcases mem_enrolled_clients hc with ⟨-, rfl⟩ | hc
        · rfl
        · rw [hclient hc] at hcflag
          exact absurd hnone ((hs.owners hr').flags hc hcflag).1
      · rw [if_neg hflag]
        rcases mem_enrolled_clients hc with ⟨-, rfl⟩ | hc
        · simp [enrolled_clientAt, newClient, hflag] at hcflag
        · rw [hclient hc] at hcflag
          exact hone sid' r' c hr' hc hcflag
    · rw [enrolled_roomAt_of_ne s hrr] at hc ⊢
      rw [hclient hc] at hcflag
      exact hone sid' r' c hr' hc hcflag

theorem OneFlag.atCreated (hone : OneFlag s)
    (hr : s.getRoomByID (s.joinTarget u join) = none) : OneFlag (s.atCreated u join) := by
  obtain ⟨-, hreg, hroom, hclient⟩ := atCreated_eq hr
  intro sid r c hr' hc hflag
  rw [hroom] at hc ⊢
  rw [hclient] at hflag
  by_cases hnew : r = s.nextRoom
  · simp [hnew] at hc
  · rw [Function.update_of_ne hnew] at hc ⊢
    rw [hreg] at hr'
    split at hr'
    · exact absurd (Option.some.inj hr').symm hnew
    · exact hone sid r c hr' hc hflag

theorem OneFlag.handleJoin_iff (hs : RoomInv u s) (hone : OneFlag s) :
    OneFlag (s.handleJoin u g ctx join).1 ↔
      ¬ (join.isOwner = true ∧ allowsRoom ctx join.sessionId = true ∧
        ∃ r, s.getRoomByID (s.joinTarget u join) = some r ∧ (s.roomAt r).ownerClientId ≠ "" ∧
          s.refuses join r = false) := by
  have hlook := SameRooms.atLookup (u := u) s join
  have hcase := handleJoin_case (u := u) s g ctx join
  generalize s.handleJoin u g ctx join = result at hcase ⊢
  cases hcase with
  | forbidden _ hallows _ =>
    exact iff_of_true (hone.of_sameRooms (.tick s)) (by simp [hallows])
  | lost _ hr _ _ =>
    exact iff_of_true (hone.of_sameRooms (hlook.trans (.tick _))) (by simp [hr])
  | turnedAway r _ hr hrefuse =>
    refine iff_of_true (hone.of_sameRooms (hlook.trans (enterRoom_refused ?_)))
      (by simp [hr, hrefuse])
    exact (atLookup_refuses s r).trans hrefuse
  | joined r hallows hr haccept =>
    have hsame : SameRooms s ((s.atLookup u join).declareEncrypted r join) :=
      hlook.trans (SameRooms.declareEncrypted _ r join)
    rw [OneFlag.congr (SameRooms.accept _), (hone.of_sameRooms hsame).enrolled_iff
      (hs.of_sameRooms hsame) ((hsame.getRoomByID _).trans hr), hsame.ownerClientId]
    simp [hallows, hr, haccept]
  | createdRefused _ hr _ hrefuse =>
    refine iff_of_true ((hone.atCreated hr).of_sameRooms (enterRoom_refused hrefuse)) ?_
    simp [hr]
  | created _ hr _ _ =>
    obtain ⟨-, hreg, hroom, -⟩ := atCreated_eq hr
    have hsame := SameRooms.declareEncrypted (s.atCreated u join) s.nextRoom join
    refine iff_of_true ?_ (by simp [hr])
    rw [OneFlag.congr (SameRooms.accept _), ((hone.atCreated hr).of_sameRooms hsame).enrolled_iff
      ((hs.atCreated join).of_sameRooms hsame), hsame.ownerClientId, hroom, Function.update_self]
    · simp
    · rw [hsame.getRoomByID, hreg, if_pos rfl]

/-- Fewer rooms and clients, with the owners and the flags they had. -/
theorem OneFlag.of_fewer (hone : OneFlag s)
    (hreg : ∀ sid r, s'.getRoomByID sid = some r → s.getRoomByID sid = some r)
    (hclients : ∀ r c, c ∈ (s'.roomAt r).clients → c ∈ (s.roomAt r).clients)
    (hinfo : ∀ r c, c ∈ (s'.roomAt r).clients → (s'.clientAt c).info = (s.clientAt c).info)
    (howner : ∀ r, (s'.roomAt r).ownerClientId = (s.roomAt r).ownerClientId) : OneFlag s' := by
  intro sid r c hr hc hflag
  rw [hinfo r c hc] at hflag
  rw [howner]
  exact hone sid r c (hreg sid r hr) (hclients r c hc) hflag

theorem OneFlag.removeRoom (hone : OneFlag s) (sid : String) : OneFlag (s.removeRoom sid) := by
  refine hone.of_fewer (fun _ _ h => removeRoom_registered h) ?_ ?_ ?_
  · intro r c hc
    rwa [removeRoom_roomAt] at hc
  · intro r c _
    rw [removeRoom_clientAt]
  · intro r
    rw [removeRoom_roomAt]

theorem OneFlag.removeLeft {x : String} (hone : OneFlag s) : OneFlag (s.removeLeft r x) := by
  refine hone.of_fewer (fun _ _ h => h) (fun _ _ hc => mem_removeLeft_clients hc)
    (fun _ _ _ => rfl) fun r' => ?_
  by_cases hr : r' = r
  · rw [hr, removeLeft_roomAt_self]
  · rw [removeLeft_roomAt_of_ne s hr]

theorem OneFlag.announceLeft {x reason : String} {n : Nat} (hone : OneFlag s) :
    OneFlag (s.announceLeft u g x reason r n).1 := by
  unfold CollabService.announceLeft
  dsimp only
  have hsent : OneFlag (s.tick.broadcastToAll g r (peerLeftEvent (s.uuid u) x reason n)) :=
    hone.of_sameRooms ((SameRooms.tick s).trans (SameRooms.deliverAll g _ _))
  refine OneFlag.of_sameRooms (SameRooms.tick _) ?_
  split
  · exact OneFlag.removeRoom hsent _
  · exact hsent

theorem OneFlag.endRoom {x : String} (hone : OneFlag s) : OneFlag (s.endRoom u g x r).1 := by
  unfold CollabService.endRoom
  dsimp only
  refine OneFlag.of_sameRooms (SameRooms.tick _) (OneFlag.removeRoom ?_ _)
  have hone : OneFlag (s.tick.broadcastToAll g r (ownerDisconnectedEvent (s.uuid u) x)) :=
    hone.of_sameRooms ((SameRooms.tick s).trans (SameRooms.deliverAll g _ _))
  generalize s.tick.broadcastToAll g r (ownerDisconnectedEvent (s.uuid u) x) = s at hone
  have hclosed := SameRooms.closeClients s (s.roomAt r).clients
  refine hone.of_fewer (fun sid r' h => (hclosed.getRoomByID sid).symm.trans h) ?_ ?_ ?_
  · intro r' c hc
    by_cases hr : r' = r
    · simp [hr, closeAllClients] at hc
    · rwa [closeAllClients, modifyRoom_roomAt_of_ne _ _ hr, hclosed.clients] at hc
  · intro r' c _
    exact hclosed.info c
  · intro r'
    by_cases hr : r' = r
    · rw [hr, closeAllClients, modifyRoom_roomAt_self]
      exact hclosed.ownerClientId r
    · rw [closeAllClients, modifyRoom_roomAt_of_ne _ _ hr]
      exact hclosed.ownerClientId r'

/-- The flag of the owner that leaves goes with it, so the successor's is the only one. -/
theorem OneFlag.moved {x successor : String} (hwf : RoomsWF u s) (hone : OneFlag s)
    (hr : s.getRoomByID sid = some r) (hx : x ∈ (s.roomAt r).clients)
    (hflag : (s.clientAt x).info.isOwner = true)
    (hmem : successor ∈ ((s.removeLeft r x).roomAt r).clients) :
    OneFlag ((s.removeLeft r x).transferOwner r successor) := by
  have hid : (s.clientAt successor).info.clientId = successor :=
    (hwf.member (mem_removeLeft_clients hmem)).1
  intro sid' r' c hr' hc hcflag
  rw [(transferOwner_clients _ _ _).1] at hc
  have hcr := mem_removeLeft_clients hc
  by_cases hcs : c = successor
  · obtain rfl : r' = r := hwf.room_unique hcr (hcs ▸ mem_removeLeft_clients hmem)
    rw [transferOwner_roomAt_self, hcs]
    exact hid.symm
  · rw [transferOwner_clientAt_of_ne _ hcs] at hcflag
    have hcowner := hone sid' r' c hr' hcr hcflag
    by_cases hrr : r' = r
    · subst hrr
      have hxowner := hone sid r' x hr hx hflag
      rw [removeLeft_roomAt_self, hcowner, ← hxowner] at hc
      exact absurd rfl ((hwf.nodup r').mem_erase_iff.mp hc).1
    · rw [transferOwner_roomAt_of_ne _ _ hrr, removeLeft_roomAt_of_ne s hrr]
      exact hcowner

theorem OneFlag.handleLeave {x : String} {leave : LeaveRoom} {pick : Nat} (hwf : RoomsWF u s)
    (hone : OneFlag s) : OneFlag (s.handleLeave u g x leave pick).1 := by
  cases hfind : s.findRoomForClient x with
  | none =>
    unfold CollabService.handleLeave
    rw [hfind]
    exact hone
  | some r =>
    obtain ⟨⟨sid, hr⟩, hx⟩ := findRoomForClient_eq_some hfind
    cases handleLeave_cases (u := u) (g := g) leave pick hfind with
    | plain _ heq =>
      rw [heq]
      exact hone.removeLeft.announceLeft
    | ended _ _ _ _ heq =>
      rw [heq]
      exact hone.removeLeft.endRoom
    | moved pick successor hflag _ hsucc heq =>
      rw [heq]
      refine OneFlag.announceLeft (OneFlag.of_sameRooms
        ((SameRooms.tick _).trans (SameRooms.deliverAll g _ _)) ?_)
      exact hone.moved hwf hr hx hflag (findSuccessor_eq_some hsucc).2.1

/-- What makes a second owner is a join as owner into a room that has one. -/
theorem OneFlag.serve_iff (hs : RoomInv u s) (hone : OneFlag s) (req : Request) :
    OneFlag (s.serve u req) ↔ ¬ SecondOwner u s req := by
  cases req with
  | receive c => exact iff_of_true (hone.of_sameRooms (SameRooms.receive s c)) id
  | deliverAppMessage g sid c msg =>
    exact iff_of_true (hone.of_sameRooms (SameRooms.deliverAppMessage g sid c msg s)) id
  | handle g ctx a pick =>
    obtain ⟨actionId, clientId, action⟩ := a
    cases action with
    | none => exact iff_of_true hone id
    | some action =>
      cases action with
      | join join => exact hone.handleJoin_iff hs
      | leave leave => exact iff_of_true (hone.handleLeave hs.wf) id
      | presence presence =>
        exact iff_of_true (hone.of_sameRooms (SameRooms.handlePresence g _ presence s)) id
      | sceneUpdate _ | cursorUpdate _ | textUpdate _ | sceneInitRequest | sceneInitResponse _
      | credentialsChanged _ | titleChanged _ | appMessage _ =>
        exact iff_of_true (hone.of_sameRooms (SameRooms.handleBroadcast g _ _ s)) id

end CollabService

end MassRelay

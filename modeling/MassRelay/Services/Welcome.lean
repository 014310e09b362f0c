import MassRelay.Services.RoomHistory

/-!
# MassRelay.Services.Welcome

The clients of a run, from their welcome on.

An accepted join is answered with a `RoomJoined`; `welcomes` lists the accepted joins of a
run with their answers. Since ids never repeat, every client of a room has one answer there
(`Recorded.serveAll`), and when it was given it showed the room as it was (`Welcomed`). From
then on the client has what its queue tells it. A relation between the answer, the queue and
the room (`Agrees`) is kept by a request when each happening that can come of it keeps it
(`Agrees.serve`).
-/

namespace MassRelay

namespace CollabService

variable {u : UuidSource} {s s' : CollabService} {g : Goroutine} {ctx : Ctx} {join : JoinRoom}
variable {r : RoomRef} {sid c : String} {w : RoomJoined} {req : Request}

/-- An accepted join, with its answer. -/
def joinAnswer (u : UuidSource) (s : CollabService) : Request → Option (JoinRoom × RoomJoined)
  | .handle g ctx { action := some (.join join), .. } _ =>
    (roomJoined? (s.handleJoin u g ctx join).2).map fun w => (join, w)
  | _ => none

/-- The accepted joins of a run, with their answers. -/
def welcomes (u : UuidSource) (s : CollabService) : List Request → List (JoinRoom × RoomJoined)
  | [] => []
  | req :: reqs => (s.joinAnswer u req).toList ++ welcomes u (s.serve u req) reqs

theorem welcomes_append (u : UuidSource) (s : CollabService) (reqs : List Request) (req : Request) :
    welcomes u s (reqs ++ [req]) =
      welcomes u s reqs ++ ((serveAll u s reqs).joinAnswer u req).toList := by
  induction reqs generalizing s with
  | nil => simp [welcomes, serveAll]
  | cons req' reqs ih => simp [welcomes, serveAll, ih]

/-! ### One answer -/

/-- Client `w.clientId` has just been let into room `r`, and its answer shows the room. -/
structure Welcomed (u : UuidSource) (s s' : CollabService) (r : RoomRef) (join : JoinRoom)
    (w : RoomJoined) : Prop where
  fresh : ¬ Issued u s w.clientId
  issued : Issued u s' w.clientId
  /-- Nobody was lost, and nobody else came. -/
  clients : (s'.view r).clients = w.clientId :: w.room.peers.map (·.1)
  before : (s.view r).clients = w.room.peers.map (·.1)
  peers : ∀ p ∈ w.room.peers, p.2.clientId = p.1 ∧ p.1 ≠ ""
  ownerClientId : (s'.view r).ownerClientId = w.room.ownerClientId
  title : (s'.view r).title = w.room.title
  encrypted : (s'.view r).encrypted = w.room.encrypted
  capable : w.room.encrypted = true → 2 ≤ join.protocolVersion
  heard : s'.heard w.clientId = []
  slow : (s'.clientAt w.clientId).slow = false

/-- The answer of a join shows the room that it enters. -/
theorem accept_welcomed {s₁ : CollabService} (hwf : RoomsWF u s₁) (hopen : ChansOpen s₁)
    (hr : s₁.getRoomByID sid = some r) (hclients : (s₁.roomAt r).clients = (s.roomAt r).clients)
    (hnext : s.nextUuid ≤ s₁.nextUuid)
    (hcapable : (s₁.roomAt r).encrypted = true → 2 ≤ join.protocolVersion) :
    Welcomed u s (s₁.accept u g ctx join sid r).1 r join (s₁.welcome u join sid r) := by
  have hview :
      (s₁.accept u g ctx join sid r).1.view r = (s₁.enrolled u g ctx join sid r).view r := by
    rw [view, accept_sendsOnly.roomAt, view]
  have hpeers : (s₁.getPeerInfo r).map (·.1) = (s₁.roomAt r).clients := by
    simp [getPeerInfo, Function.comp_def]
  have hsent := accept_sent (c := s₁.uuid u) g ctx join hwf hopen hr
  rw [if_neg (hwf.uuid_notMem r)] at hsent
  have hnew : (s₁.enrolled u g ctx join sid r).clientAt (s₁.uuid u) =
      newClient g ctx join sid (s₁.uuid u) (s₁.getPeerInfo r) := by
    rw [enrolled_clientAt, Function.update_self]
  have hslow := (hsent.keeps (by rw [hnew]; rfl) (by rw [hnew]; exact Nat.zero_le _)).1
  constructor
  · rintro ⟨k, hk, hck⟩
    exact (hk.trans_le hnext).ne' (u.new_injective hck)
  · exact ⟨s₁.nextUuid, accept_sendsOnly.nextUuid, rfl⟩
  · rw [hview, enrolled_view_self]
    exact (List.insert_of_not_mem (hwf.uuid_notMem r)).trans (congrArg _ hpeers.symm)
  · exact hclients.symm.trans hpeers.symm
  · intro p hp
    obtain ⟨c, hc, rfl⟩ := List.mem_map.mp hp
    obtain ⟨hid, -, k, -, hck⟩ := hwf.member hc
    exact ⟨hid, hck ▸ u.new_ne_empty k⟩
  · rw [hview, enrolled_view_self]; rfl
  · rw [hview, enrolled_view_self]; rfl
  · rw [hview, enrolled_view_self]; rfl
  · exact hcapable
  · exact (hsent.kept hslow).2.1.trans (by rw [heard, hnew]; rfl)
  · exact hslow

theorem roomJoined?_of_refuses {a : Answer} (h : a.refuses = true) : roomJoined? a = none := by
  unfold roomJoined?
  split
  · simp [Answer.refuses] at h
  · rfl

theorem roomJoined?_accept (s : CollabService) :
    roomJoined? (s.accept u g ctx join sid r).2 = some (s.welcome u join sid r) := by
  obtain ⟨⟨eventId, fromClientId, event⟩, heq, rfl⟩ := accept_answer u g ctx join sid r s
  rw [heq]
  rfl

theorem capable_of_accepted (haccept : s.refuses join r = false)
    (henc : ((s.declareEncrypted r join).roomAt r).encrypted = true) :
    2 ≤ join.protocolVersion := by
  simp only [refuses, henc, Bool.or_eq_false_iff, Bool.true_and, decide_eq_false_iff_not] at haccept
  omega

theorem atCreated_clients (hwf : RoomsWF u s) (hr : s.getRoomByID (s.joinTarget u join) = none)
    (r : RoomRef) : ((s.atCreated u join).roomAt r).clients = (s.roomAt r).clients := by
  rw [(atCreated_eq hr).2.2.1]
  by_cases hnew : r = s.nextRoom
  · rw [hnew, Function.update_self, hwf.nextRoom_empty]
  · rw [Function.update_of_ne hnew]

/-- An accepted join lets its client in, and the answer says to what. -/
theorem handleJoin_welcomed (hs : RoomInv u s) (hopen : ChansOpen s)
    (hanswer : roomJoined? (s.handleJoin u g ctx join).2 = some w) :
    ∃ r, Welcomed u s (s.handleJoin u g ctx join).1 r join w := by
  have hcase := handleJoin_case (u := u) s g ctx join
  generalize s.handleJoin u g ctx join = result at hcase hanswer
  cases hcase with
  | forbidden e _ he =>
    rw [roomJoined?_of_refuses he] at hanswer
    simp at hanswer
  | lost e _ _ he =>
    rw [roomJoined?_of_refuses he] at hanswer
    simp at hanswer
  | turnedAway r _ _ hrefuse =>
    rw [roomJoined?_of_refuses (enterRoom_answer_refuses.trans
      ((atLookup_refuses s r).trans hrefuse))] at hanswer
    simp at hanswer
  | createdRefused _ _ _ hrefuse =>
    rw [roomJoined?_of_refuses (enterRoom_answer_refuses.trans hrefuse)] at hanswer
    simp at hanswer
  | joined r _ hr haccept =>
    obtain rfl := Option.some.inj ((roomJoined?_accept _).symm.trans hanswer)
    have hsame : SameRooms s ((s.atLookup u join).declareEncrypted r join) :=
      (SameRooms.atLookup s join).trans (SameRooms.declareEncrypted _ r join)
    have hclients : ((s.atLookup u join).declareEncrypted r join).clientAt = s.clientAt := by
      rw [declareEncrypted_clientAt, atLookup_clientAt]
    refine ⟨r, accept_welcomed (hs.wf.of_sameRooms hsame) (hopen.sameRooms hsame hclients)
      ((hsame.getRoomByID _).trans hr) (hsame.clients r) hsame.nextUuid ?_⟩
    exact capable_of_accepted ((atLookup_refuses (u := u) s r).trans haccept)
  | created _ hr _ haccept =>
    obtain rfl := Option.some.inj ((roomJoined?_accept _).symm.trans hanswer)
    have hsame := SameRooms.declareEncrypted (s.atCreated u join) s.nextRoom join
    have hopen₁ := (hopen.atCreated hr).sameRooms hsame (declareEncrypted_clientAt _ _ _)
    refine ⟨s.nextRoom, accept_welcomed ((hs.atCreated join).of_sameRooms hsame).wf hopen₁ ?_ ?_
      ((atCreated_nextUuid s join).trans hsame.nextUuid) (capable_of_accepted haccept)⟩
    · rw [hsame.getRoomByID, (atCreated_eq hr).2.1, if_pos rfl]
    · rw [hsame.clients, atCreated_clients hs.wf hr]

theorem joinAnswer_welcomed (hs : RoomInv u s) (hopen : ChansOpen s)
    (hanswer : s.joinAnswer u req = some (join, w)) :
    ∃ r, Welcomed u s (s.serve u req) r join w := by
  unfold joinAnswer at hanswer
  split at hanswer
  · obtain ⟨w', hw, heq⟩ := Option.map_eq_some_iff.mp hanswer
    obtain ⟨rfl, rfl⟩ := Prod.mk.inj heq
    exact handleJoin_welcomed hs hopen hw
  · simp at hanswer

/-! ### Who comes into a room -/

theorem handleLeave_clients {x : String} {leave : LeaveRoom} {pick : Nat}
    (hc : c ∈ ((s.handleLeave u g x leave pick).1.roomAt r).clients) :
    c ∈ (s.roomAt r).clients := by
  cases hfind : s.findRoomForClient x with
  | none => simpa only [handleLeave, hfind] using hc
  | some r' =>
    cases handleLeave_cases (u := u) (g := g) leave pick hfind with
    | plain _ heq =>
      rw [heq, announceLeft_roomAt] at hc
      exact mem_removeLeft_clients hc
    | ended _ _ _ _ heq =>
      rw [heq] at hc
      obtain ⟨hself, hother⟩ :=
        endRoom_view (u := u) (g := g) (x := x) (r := r') (s.removeLeft r' x)
      change c ∈ ((CollabService.endRoom u g x r' (s.removeLeft r' x)).1.view r).clients at hc
      by_cases hr : r = r'
      · rw [hr, hself] at hc
        simp at hc
      · rw [hother r hr] at hc
        exact mem_removeLeft_clients hc
    | moved _ successor _ _ _ heq =>
      rw [heq, announceLeft_roomAt, broadcastToAll_roomAt] at hc
      exact mem_removeLeft_clients ((transferOwner_clients _ successor r).1 ▸ hc)

theorem handleJoin_newcomer (hs : RoomInv u s)
    (hc : c ∈ ((s.handleJoin u g ctx join).1.roomAt r).clients)
    (hnot : c ∉ (s.roomAt r).clients) :
    ∃ w, roomJoined? (s.handleJoin u g ctx join).2 = some w ∧ w.clientId = c := by
  have hlook := SameRooms.atLookup (u := u) s join
  have haccepted : ∀ {s₁ : CollabService} {sid : String} {r' : RoomRef},
      c ∈ ((s₁.accept u g ctx join sid r').1.roomAt r).clients → c ∉ (s₁.roomAt r).clients →
      ∃ w, roomJoined? (s₁.accept u g ctx join sid r').2 = some w ∧ w.clientId = c := by
    intro s₁ sid r' hc hnot
    rw [(SameRooms.accept s₁).clients] at hc
    exact ⟨_, roomJoined?_accept s₁, ((mem_enrolled_clients hc).resolve_right hnot).2.symm⟩
  have hcase := handleJoin_case (u := u) s g ctx join
  generalize s.handleJoin u g ctx join = result at hcase hc ⊢
  cases hcase with
  | forbidden _ _ _ => exact absurd hc hnot
  | lost _ _ _ _ => exact absurd ((hlook.trans (.tick _)).clients r ▸ hc) hnot
  | turnedAway r' _ _ hrefuse =>
    have hsame : SameRooms s ((s.atLookup u join).enterRoom u g ctx join (s.joinTarget u join)
        r').1 := hlook.trans (enterRoom_refused ((atLookup_refuses s r').trans hrefuse))
    exact absurd (hsame.clients r ▸ hc) hnot
  | joined r' _ _ _ =>
    have hsame := hlook.trans (SameRooms.declareEncrypted (s.atLookup u join) r' join)
    exact haccepted hc (by rwa [hsame.clients])
  | createdRefused _ hr _ hrefuse =>
    rw [(enterRoom_refused hrefuse).clients, atCreated_clients hs.wf hr] at hc
    exact absurd hc hnot
  | created _ hr _ _ =>
    have hsame := SameRooms.declareEncrypted (s.atCreated u join) s.nextRoom join
    exact haccepted hc (by rwa [hsame.clients, atCreated_clients hs.wf hr])

/-- Only an accepted join brings a client into a room. -/
theorem serve_newcomer (hs : RoomInv u s) (hc : c ∈ ((s.serve u req).roomAt r).clients)
    (hnot : c ∉ (s.roomAt r).clients) :
    ∃ join w, s.joinAnswer u req = some (join, w) ∧ w.clientId = c := by
  have hsame : SameRooms s (s.serve u req) → ∃ join w, s.joinAnswer u req = some (join, w) ∧
      w.clientId = c := fun h => absurd (h.clients r ▸ hc) hnot
  cases req with
  | receive c' => exact hsame (.receive s c')
  | deliverAppMessage g sid c' msg => exact hsame (.deliverAppMessage g sid c' msg s)
  | handle g ctx a pick =>
    obtain ⟨actionId, x, action⟩ := a
    cases action with
    | none => exact hsame (.refl s)
    | some action =>
      cases action with
      | join join =>
        obtain ⟨w, hw, hid⟩ := handleJoin_newcomer hs hc hnot
        exact ⟨join, w, by rw [joinAnswer, hw]; rfl, hid⟩
      | leave leave => exact absurd (handleLeave_clients hc) hnot
      | presence p => exact hsame (.handlePresence g _ p s)
      | sceneUpdate _ | cursorUpdate _ | textUpdate _ | sceneInitRequest | sceneInitResponse _
      | credentialsChanged _ | titleChanged _ | appMessage _ =>
        exact hsame (.handleBroadcast g _ _ s)

/-- A client with an id from before was in its room before. -/
theorem serve_old (hs : RoomInv u s) (hopen : ChansOpen s) (hissued : Issued u s c)
    (hc : c ∈ ((s.serve u req).roomAt r).clients) : c ∈ (s.roomAt r).clients := by
  by_contra hnot
  obtain ⟨join, w, hanswer, hid⟩ := serve_newcomer hs hc hnot
  obtain ⟨r', hw⟩ := joinAnswer_welcomed hs hopen hanswer
  exact hw.fresh (hid ▸ hissued)

/-! ### Ids -/

theorem announceLeft_nextUuid {x reason : String} {n : Nat} :
    s.nextUuid ≤ (s.announceLeft u g x reason r n).1.nextUuid := by
  have hsent : s.nextUuid ≤
      (s.tick.broadcastToAll g r (peerLeftEvent (s.uuid u) x reason n)).nextUuid :=
    ((SendsOnly.tick s).trans (.deliverAll g _ _)).nextUuid
  unfold announceLeft
  dsimp only
  refine le_trans ?_ (SendsOnly.tick _).nextUuid
  split
  · exact hsent.trans (SideStep.removeRoom (.direct 0) _ _).nextUuid
  · exact hsent

theorem endRoom_nextUuid {x : String} : s.nextUuid ≤ (s.endRoom u g x r).1.nextUuid := by
  have hsent : s.nextUuid ≤
      (s.tick.broadcastToAll g r (ownerDisconnectedEvent (s.uuid u) x)).nextUuid :=
    ((SendsOnly.tick s).trans (.deliverAll g _ _)).nextUuid
  unfold endRoom
  dsimp only
  refine le_trans (hsent.trans ?_) (SendsOnly.tick _).nextUuid
  refine le_trans ?_ (SideStep.removeRoom (.direct 0) _ _).nextUuid
  exact (SameRooms.closeClients _ _).nextUuid

theorem handleJoin_nextUuid : s.nextUuid ≤ (s.handleJoin u g ctx join).1.nextUuid := by
  have hlook := SameRooms.atLookup (u := u) s join
  have hcase := handleJoin_case (u := u) s g ctx join
  generalize s.handleJoin u g ctx join = result at hcase ⊢
  cases hcase with
  | forbidden _ _ _ => exact (SameRooms.tick s).nextUuid
  | lost _ _ _ _ => exact (hlook.trans (.tick _)).nextUuid
  | turnedAway r _ _ hrefuse =>
    exact (hlook.trans (enterRoom_refused ((atLookup_refuses s r).trans hrefuse))).nextUuid
  | joined r _ _ _ =>
    refine (hlook.trans (.declareEncrypted _ r join)).nextUuid.trans ?_
    exact (Nat.le_succ _).trans accept_sendsOnly.nextUuid
  | createdRefused _ _ _ hrefuse =>
    exact (atCreated_nextUuid s join).trans (enterRoom_refused hrefuse).nextUuid
  | created _ _ _ _ =>
    have hdeclared := (SameRooms.declareEncrypted (s.atCreated u join) s.nextRoom join).nextUuid
    refine ((atCreated_nextUuid s join).trans hdeclared).trans ?_
    exact (Nat.le_succ _).trans accept_sendsOnly.nextUuid

theorem serve_nextUuid (s : CollabService) (req : Request) :
    s.nextUuid ≤ (s.serve u req).nextUuid := by
  cases req with
  | receive c' => exact (SameRooms.receive s c').nextUuid
  | deliverAppMessage g sid c' msg => exact (SameRooms.deliverAppMessage g sid c' msg s).nextUuid
  | handle g ctx a pick =>
    obtain ⟨actionId, x, action⟩ := a
    cases action with
    | none => exact le_rfl
    | some action =>
      cases action with
      | join join => exact handleJoin_nextUuid
      | leave leave =>
        simp only [serve, handleAction]
        cases hfind : s.findRoomForClient x with
        | none => simp only [handleLeave, hfind, le_refl]
        | some r =>
          cases handleLeave_cases (u := u) (g := g) leave pick hfind with
          | plain _ heq =>
            rw [heq]
            exact announceLeft_nextUuid (s := s.removeLeft r x)
          | ended _ _ _ _ heq =>
            rw [heq]
            exact endRoom_nextUuid (s := s.removeLeft r x)
          | moved _ successor _ _ _ heq =>
            rw [heq]
            refine le_trans ?_ announceLeft_nextUuid
            rw [broadcastToAll]
            refine le_trans ?_ (SendsOnly.deliverAll g _ _).nextUuid
            exact Nat.le_succ s.nextUuid
      | presence p => exact (SameRooms.handlePresence g _ p s).nextUuid
      | sceneUpdate _ | cursorUpdate _ | textUpdate _ | sceneInitRequest | sceneInitResponse _
      | credentialsChanged _ | titleChanged _ | appMessage _ =>
        exact (SameRooms.handleBroadcast g _ _ s).nextUuid

/-! ### The clients of a run -/

/-- The answers account for the clients of the rooms, each by its own id. -/
structure Recorded (u : UuidSource) (s : CollabService) (ws : List (JoinRoom × RoomJoined)) :
    Prop where
  issued : ∀ p ∈ ws, Issued u s p.2.clientId
  nodup : (ws.map (·.2.clientId)).Nodup
  member : ∀ r c, c ∈ (s.roomAt r).clients → ∃ p ∈ ws, p.2.clientId = c

theorem Recorded.serve {ws : List (JoinRoom × RoomJoined)} (hs : RoomInv u s) (hopen : ChansOpen s)
    (hws : Recorded u s ws) (req : Request) :
    Recorded u (s.serve u req) (ws ++ (s.joinAnswer u req).toList) := by
  have hnew : ∀ p ∈ (s.joinAnswer u req).toList,
      ¬ Issued u s p.2.clientId ∧ Issued u (s.serve u req) p.2.clientId := by
    rintro ⟨join, w⟩ hp
    obtain ⟨r, hw⟩ := joinAnswer_welcomed hs hopen (Option.mem_toList.mp hp)
    exact ⟨hw.fresh, hw.issued⟩
  constructor
  · intro p hp
    rcases List.mem_append.mp hp with hp | hp
    · exact (hws.issued p hp).mono (serve_nextUuid s req)
    · exact (hnew p hp).2
  · rw [List.map_append, List.nodup_append]
    refine ⟨hws.nodup, ?_, ?_⟩
    · cases s.joinAnswer u req <;> simp
    · rintro _ hold _ hlast rfl
      obtain ⟨p, hp, hid⟩ := List.mem_map.mp hold
      obtain ⟨q, hq, rfl⟩ := List.mem_map.mp hlast
      exact (hnew q hq).1 (hid ▸ hws.issued p hp)
  · intro r c hc
    by_cases hold : c ∈ (s.roomAt r).clients
    · obtain ⟨p, hp, hid⟩ := hws.member r c hold
      exact ⟨p, List.mem_append_left _ hp, hid⟩
    · obtain ⟨join, w, hanswer, hid⟩ := serve_newcomer hs hc hold
      exact ⟨(join, w), List.mem_append_right _ (by rw [hanswer]; simp), hid⟩

theorem Recorded.serveAll (maxPeers : Int) (reqs : List Request) :
    Recorded u (serveAll u (newCollabService maxPeers) reqs)
      (welcomes u (newCollabService maxPeers) reqs) := by
  induction reqs using List.reverseRecOn with
  | nil => exact ⟨by simp [welcomes], by simp [welcomes], by simp [MassRelay.serveAll,
      newCollabService]⟩
  | append_singleton reqs req ih =>
    rw [welcomes_append, MassRelay.serveAll, List.foldl_append]
    exact ih.serve (RoomInv.serveAll maxPeers reqs) (.serveAll maxPeers reqs) req

/-- A new client is in the room that its answer is about. -/
theorem Welcomed.room_unique {r' : RoomRef} (hs : RoomInv u s)
    (hw : Welcomed u s (s.serve u req) r' join w)
    (hc : w.clientId ∈ ((s.serve u req).roomAt r).clients) : r' = r := by
  have hmem : w.clientId ∈ ((s.serve u req).roomAt r').clients := by
    change w.clientId ∈ ((s.serve u req).view r').clients
    rw [hw.clients]
    exact List.mem_cons_self
  exact (hs.serve req).wf.room_unique hmem hc

/-- Every client that is in a room and keeps up stands in the relation `P` to it, by its answer
and what its queue has held. -/
def Agrees (P : RoomJoined → List Event → RoomView → Prop) (s : CollabService)
    (ws : List (JoinRoom × RoomJoined)) : Prop :=
  ∀ p ∈ ws, ∀ r, p.2.clientId ∈ (s.roomAt r).clients → (s.clientAt p.2.clientId).slow = false →
    P p.2 (s.heard p.2.clientId) (s.view r)

/-- A relation holds after a request if it holds of the new client there may be, and what
happened keeps it for the others. -/
theorem Agrees.serve {P : RoomJoined → List Event → RoomView → Prop}
    {ws : List (JoinRoom × RoomJoined)} (hs : RoomInv u s) (hopen : ChansOpen s)
    (hws : Recorded u s ws) (hagrees : Agrees P s ws)
    (hnew : ∀ r join w, Welcomed u s (s.serve u req) r join w →
      P w [] ((s.serve u req).view r))
    (hkept : ∀ r h w es, Happens u s r req h → w.clientId ∈ (s.roomAt r).clients →
      (s.clientAt w.clientId).slow = false →
      (h.told (s.view r) w.clientId ≠ [] → (s.clientAt w.clientId).sendCh.buf.length < 64) →
      w.clientId ∈ (h.apply (s.view r)).clients → P w es (s.view r) →
      P w (es ++ h.told (s.view r) w.clientId) (h.apply (s.view r))) :
    Agrees P (s.serve u req) (ws ++ (s.joinAnswer u req).toList) := by
  rintro ⟨join, w⟩ hp r hc hslow
  rcases List.mem_append.mp hp with hp | hp
  · have hold := serve_old hs hopen (hws.issued _ hp) hc
    obtain ⟨h, hhappens, hdoes⟩ := serve_happens hs hopen (hs.wf.live hold) req
    obtain ⟨hslow', hheard, hfree⟩ := (hdoes.hears _ hold).kept hslow
    rw [hheard, hdoes.view]
    refine hkept r h w _ hhappens hold hslow' hfree ?_ (hagrees _ hp r hold hslow')
    rw [← hdoes.view]
    exact hc
  · obtain ⟨r', hw⟩ := joinAnswer_welcomed hs hopen (Option.mem_toList.mp hp)
    obtain rfl := hw.room_unique hs hc
    rw [hw.heard]
    exact hnew r' join w hw

end CollabService

end MassRelay

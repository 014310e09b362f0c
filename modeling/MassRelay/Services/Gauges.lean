import MassRelay.Lib.History
import MassRelay.Lib.Total
import MassRelay.Services.Traffic

/-!
# MassRelay.Services.Gauges

Whether the metrics callbacks count what exists.

The gauges of `web/server/app.go` go up with `OnPeerJoined` and `OnRoomCreated` and down
with `OnPeerLeft` and `OnRoomRemoved`. How far each is ahead of the rooms and clients there
are is its surplus, and almost every step keeps both (`SameSurplus`): what is inserted or
removed is called back once. `CloseAllClients` removes clients without a callback, so a
session that ends leaves the peer gauge too high by the number of clients it ended for
(`gauges_run_iff`).
-/

namespace MassRelay

namespace CollabService

variable {u : UuidSource} {s s' s'' : CollabService} {g : Goroutine} {ctx : Ctx} {join : JoinRoom}
variable {r : RoomRef} {x : String} {sid : String}

/-- `RoomAndPeerCount`. -/
def roomAndPeerCount (s : CollabService) : Nat × Nat :=
  (s.rooms.entries.length, (s.rooms.entries.map fun entry => s.clientCount entry.2).sum)

/-- The gauges show how many rooms and clients there are. -/
structure GaugesCount (s : CollabService) : Prop where
  peers : (s.metrics.onPeerJoined : Int) - s.metrics.onPeerLeft = s.roomAndPeerCount.2
  rooms : (s.metrics.onRoomCreated : Int) - s.metrics.onRoomRemoved = s.roomAndPeerCount.1

/-- The leave of an owner that has others in its room, none of them a tab of the browser it
named. -/
def EndsForOthers (s : CollabService) : Request → Prop
  | .handle _ _ { clientId := x, action := some (.leave _), .. } _ =>
    ∃ r, s.findRoomForClient x = some r ∧ (s.clientAt x).info.isOwner = true ∧
      (s.roomAt r).clients.erase x ≠ [] ∧
      ∀ c ∈ (s.roomAt r).clients, c ≠ x →
        ¬ ((s.clientAt x).browserId ≠ "" ∧ (s.clientAt c).browserId = (s.clientAt x).browserId)
  | _ => False

/-! ### Surplus -/

/-- How far the peer gauge is ahead of the clients there are. -/
def peerSurplus (s : CollabService) : Int :=
  (s.metrics.onPeerJoined : Int) - s.metrics.onPeerLeft - s.rooms.total s.clientCount

/-- How far the room gauge is ahead of the rooms there are. -/
def roomSurplus (s : CollabService) : Int :=
  (s.metrics.onRoomCreated : Int) - s.metrics.onRoomRemoved - s.rooms.total fun _ => 1

theorem gaugesCount_iff : GaugesCount s ↔ s.peerSurplus = 0 ∧ s.roomSurplus = 0 := by
  rw [peerSurplus, roomSurplus, AList.total_one]
  constructor
  · rintro ⟨hpeers, hrooms⟩
    exact ⟨sub_eq_zero.mpr hpeers, sub_eq_zero.mpr hrooms⟩
  · rintro ⟨hpeers, hrooms⟩
    exact ⟨sub_eq_zero.mp hpeers, sub_eq_zero.mp hrooms⟩

/-- Neither gauge gains on what it counts. -/
def SameSurplus (s s' : CollabService) : Prop :=
  s'.peerSurplus = s.peerSurplus ∧ s'.roomSurplus = s.roomSurplus

namespace SameSurplus

theorem refl (s : CollabService) : SameSurplus s s := ⟨rfl, rfl⟩

theorem trans (h : SameSurplus s s') (h' : SameSurplus s' s'') : SameSurplus s s'' :=
  ⟨h'.1.trans h.1, h'.2.trans h.2⟩

/-- Nothing is counted, and there is nothing to count. -/
theorem of_same (hrooms : s'.rooms = s.rooms)
    (hmetrics : { s'.metrics with onMessageRelay := 0 } = { s.metrics with onMessageRelay := 0 })
    (hclients : ∀ r, (s'.roomAt r).clients = (s.roomAt r).clients) : SameSurplus s s' := by
  obtain ⟨hcreated, hremoved, hjoined, hleft, -⟩ := Metrics.mk.inj hmetrics
  have hcount : s'.clientCount = s.clientCount := by
    funext r
    rw [clientCount, hclients, clientCount]
  unfold SameSurplus peerSurplus roomSurplus
  rw [hrooms, hcount, hcreated, hremoved, hjoined, hleft]
  exact ⟨rfl, rfl⟩

theorem trafficOnly (h : TrafficOnly s s') : SameSurplus s s' :=
  of_same h.rooms h.metrics fun r => by rw [h.roomAt]

theorem modifyRoom {f : CollabRoom → CollabRoom}
    (hf : (f (s.roomAt r)).clients = (s.roomAt r).clients) : SameSurplus s (s.modifyRoom r f) :=
  of_same rfl rfl fun _ => modifyRoom_clients hf

theorem atLookup (s : CollabService) (join : JoinRoom) : SameSurplus s (s.atLookup u join) := by
  obtain ⟨hints, n, heq⟩ := atLookup_eq u join s
  rw [heq]
  exact of_same rfl rfl fun _ => rfl

theorem declareEncrypted (s : CollabService) (r : RoomRef) (join : JoinRoom) :
    SameSurplus s (s.declareEncrypted r join) := by
  unfold CollabService.declareEncrypted
  split
  · exact modifyRoom rfl
  · exact refl s

theorem checked (s : CollabService) (r : RoomRef) (join : JoinRoom) :
    SameSurplus s (s.checked join r) := by
  unfold CollabService.checked
  split
  · exact refl s
  · exact declareEncrypted s r join

theorem noteRelayed (s : CollabService) (r : RoomRef) (action : Action) :
    SameSurplus s (s.noteRelayed r action) := by
  unfold CollabService.noteRelayed
  split
  · split
    · exact modifyRoom rfl
    · exact refl s
  · exact modifyRoom rfl
  · exact refl s

/-- The counts go along with what there is. -/
theorem of_counts
    (hpeers : s'.metrics.onPeerJoined + s.metrics.onPeerLeft + s.rooms.total s.clientCount =
      s.metrics.onPeerJoined + s'.metrics.onPeerLeft + s'.rooms.total s'.clientCount)
    (hrooms : s'.metrics.onRoomCreated + s.metrics.onRoomRemoved + s.rooms.total (fun _ => 1) =
      s.metrics.onRoomCreated + s'.metrics.onRoomRemoved + s'.rooms.total (fun _ => 1)) :
    SameSurplus s s' := by
  unfold SameSurplus peerSurplus roomSurplus
  omega

/-- A new room has no clients. -/
theorem getOrCreateRoom (s : CollabService) (sid : String)
    (hfresh : ∀ sid r, s.getRoomByID sid = some r → r ≠ s.nextRoom) :
    SameSurplus s (s.getOrCreateRoom sid).2 := by
  cases hlook : s.rooms.lookup sid with
  | some r =>
    rw [getOrCreateRoom_of_registered hlook]
    exact refl s
  | none =>
    generalize hs' : (s.getOrCreateRoom sid).2 = s'
    unfold CollabService.getOrCreateRoom at hs'
    rw [hlook] at hs'
    have hrooms : s'.rooms = s.rooms.insert sid s.nextRoom := by rw [← hs']; rfl
    have hmetrics : s'.metrics = { s.metrics with onRoomCreated := s.metrics.onRoomCreated + 1 } :=
      by rw [← hs']; rfl
    have hnew : s'.clientCount s.nextRoom = 0 := by
      rw [← hs']
      simp [clientCount, countRoomCreated]
    have hold : s.rooms.total s'.clientCount = s.rooms.total s.clientCount := by
      refine AList.total_congr fun sid' r hr => ?_
      rw [← hs']
      simp [clientCount, countRoomCreated, Function.update_of_ne (hfresh sid' r hr)]
    refine of_counts ?_ ?_
    · rw [hrooms, hmetrics, AList.total_insert hlook, hnew, hold]
      dsimp only
      omega
    · rw [hrooms, hmetrics, AList.total_insert hlook]
      dsimp only
      omega

/-- An accepted join adds one client to its room, and counts it. -/
theorem enrolled (hwf : RoomsWF u s) (hr : s.getRoomByID sid = some r) :
    SameSurplus s (s.enrolled u g ctx join sid r) := by
  have hcount : (s.enrolled u g ctx join sid r).clientCount r = s.clientCount r + 1 := by
    rw [clientCount, enrolled_roomAt_self, clientCount]
    exact List.length_insert_of_not_mem (hwf.uuid_notMem r)
  have htotal := AList.total_update s.clientCount (s.enrolled u g ctx join sid r).clientCount hr
    fun sid' r' hr' hne => by
      have hrr : r' ≠ r := fun h => hne (hwf.sid_unique hr (h ▸ hr'))
      rw [clientCount, enrolled_roomAt_of_ne s hrr, clientCount]
  refine of_counts ?_ rfl
  show s.metrics.onPeerJoined + 1 + s.metrics.onPeerLeft + s.rooms.total s.clientCount =
    s.metrics.onPeerJoined + s.metrics.onPeerLeft + s.rooms.total _
  omega

/-- A leave removes one client from its room, and counts it. -/
theorem removeLeft (hwf : RoomsWF u s) (hr : s.getRoomByID sid = some r)
    (hx : x ∈ (s.roomAt r).clients) : SameSurplus s (s.removeLeft r x) := by
  have hcount : (s.removeLeft r x).clientCount r + 1 = s.clientCount r := by
    rw [removeLeft_clientCount, List.length_erase_of_mem hx, clientCount]
    have := List.length_pos_of_mem hx
    omega
  have htotal := AList.total_update s.clientCount (s.removeLeft r x).clientCount hr
    fun sid' r' hr' hne => by
      have hrr : r' ≠ r := fun h => hne (hwf.sid_unique hr (h ▸ hr'))
      rw [clientCount, removeLeft_roomAt_of_ne s hrr, clientCount]
  refine of_counts ?_ rfl
  show s.metrics.onPeerJoined + s.metrics.onPeerLeft + s.rooms.total s.clientCount =
    s.metrics.onPeerJoined + (s.metrics.onPeerLeft + 1) + s.rooms.total _
  omega

/-- A room that goes is empty, and is counted. -/
theorem removeRoom (s : CollabService) (sid : String) : SameSurplus s (s.removeRoom sid) := by
  unfold CollabService.removeRoom
  cases hlook : s.rooms.lookup sid with
  | none => exact refl s
  | some r =>
    dsimp only
    split
    · rename_i hempty
      have hcount : s.clientCount r = 0 := by
        rw [clientCount, List.isEmpty_iff.mp hempty, List.length_nil]
      refine of_counts ?_ ?_
      · rw [AList.total_erase hlook s.clientCount, hcount, Nat.zero_add]
        rfl
      · rw [AList.total_erase hlook fun _ => 1]
        dsimp only
        omega
    · exact refl s

theorem transferOwner (s : CollabService) (r : RoomRef) (successor : String) :
    SameSurplus s (s.transferOwner r successor) :=
  of_same rfl rfl fun r' => (transferOwner_clients s successor r').1

theorem announceLeft (reason : String) (n : Nat) :
    SameSurplus s (s.announceLeft u g x reason r n).1 := by
  unfold CollabService.announceLeft
  dsimp only
  have hsent : SameSurplus s
      (s.tick.broadcastToAll g r (peerLeftEvent (s.uuid u) x reason n)) :=
    trafficOnly ((SendsOnly.tick s).trans (.deliverAll g _ _)).toTrafficOnly
  refine SameSurplus.trans ?_ (trafficOnly (.tick _))
  split
  · exact hsent.trans (removeRoom _ _)
  · exact hsent

theorem accept (hwf : RoomsWF u s) (hr : s.getRoomByID sid = some r) :
    SameSurplus s (s.accept u g ctx join sid r).1 :=
  (enrolled hwf hr).trans (trafficOnly accept_sendsOnly.toTrafficOnly)

theorem handleJoin (hs : RoomInv u s) : SameSurplus s (s.handleJoin u g ctx join).1 := by
  have hlook : SameSurplus s (s.atLookup u join) := atLookup s join
  have hcreated : SameSurplus s (s.atCreated u join) := by
    refine hlook.trans (getOrCreateRoom _ _ fun sid r hr => ?_)
    exact ((hs.of_sameRooms (SameRooms.atLookup s join)).wf.registered hr).2.ne
  have haccepted : ∀ {s : CollabService} {sid : String} {r : RoomRef}, RoomInv u s →
      s.getRoomByID sid = some r →
      SameSurplus s ((s.declareEncrypted r join).accept u g ctx join sid r).1 := by
    intro s sid r hs hr
    have hsame := SameRooms.declareEncrypted s r join
    exact (declareEncrypted s r join).trans
      (accept (hs.of_sameRooms hsame).wf ((hsame.getRoomByID sid).trans hr))
  have hcase := handleJoin_case (u := u) s g ctx join
  generalize s.handleJoin u g ctx join = result at hcase ⊢
  cases hcase with
  | forbidden _ _ _ => exact trafficOnly (.tick s)
  | lost _ _ _ _ => exact hlook.trans (trafficOnly (.tick _))
  | turnedAway r _ _ hrefuse =>
    exact (hlook.trans (checked _ r join)).trans (trafficOnly (enterRoom_refused_sendsOnly
      ((atLookup_refuses s r).trans hrefuse)).toTrafficOnly)
  | joined r _ hr _ =>
    have hsame := SameRooms.atLookup (u := u) s join
    exact hlook.trans (haccepted (hs.of_sameRooms hsame) ((hsame.getRoomByID _).trans hr))
  | createdRefused _ _ _ hrefuse =>
    exact (hcreated.trans (checked _ _ join)).trans
      (trafficOnly (enterRoom_refused_sendsOnly hrefuse).toTrafficOnly)
  | created _ hr _ _ =>
    refine hcreated.trans (haccepted (hs.atCreated join) ?_)
    rw [(atCreated_eq hr).2.1, if_pos rfl]

end SameSurplus

/-- A session that ends takes the remaining clients out without a callback. -/
theorem endRoom_surplus (hwf : RoomsWF u s) (hr : s.getRoomByID sid = some r) :
    (s.endRoom u g x r).1.peerSurplus = s.peerSurplus + s.clientCount r ∧
    (s.endRoom u g x r).1.roomSurplus = s.roomSurplus := by
  unfold endRoom
  dsimp only
  have hsend : SendsOnly s (s.tick.broadcastToAll g r (ownerDisconnectedEvent (s.uuid u) x)) :=
    (SendsOnly.tick s).trans (.deliverAll g _ _)
  have hsame := SameSurplus.trafficOnly hsend.toTrafficOnly
  have hcount : (s.tick.broadcastToAll g r (ownerDisconnectedEvent (s.uuid u) x)).clientCount r =
      s.clientCount r := by rw [clientCount, hsend.roomAt, clientCount]
  have hwf := hwf.of_sameRooms hsend.sameRooms
  have hr := (hsend.getRoomByID sid).trans hr
  generalize s.tick.broadcastToAll g r (ownerDisconnectedEvent (s.uuid u) x) = s₁
    at hsame hcount hwf hr ⊢
  obtain ⟨hpeers, hrooms⟩ := (SameSurplus.removeRoom (s₁.closeAllClients r)
    ((s₁.closeAllClients r).roomAt r).sessionId).trans (SameSurplus.trafficOnly (.tick _))
  rw [hpeers, hrooms, ← hsame.1, ← hsame.2, ← hcount]
  have hclosed : TrafficOnly s₁ ((s₁.roomAt r).clients.foldl closeClient s₁) :=
    .of_atRest (closeClients_atRest s₁ _)
  obtain ⟨hcreated, hremoved, hjoined, hleft, -⟩ := Metrics.mk.inj hclosed.metrics
  have hempty : (s₁.closeAllClients r).clientCount r = 0 := by
    simp [closeAllClients, clientCount]
  have htotal := AList.total_update s₁.clientCount (s₁.closeAllClients r).clientCount hr
    fun sid' r' hr' hne => by
      have hrr : r' ≠ r := fun h => hne (hwf.sid_unique hr (h ▸ hr'))
      rw [clientCount, closeAllClients, modifyRoom_roomAt_of_ne _ _ hrr, hclosed.roomAt,
        clientCount]
  have hreg : (s₁.closeAllClients r).rooms = s₁.rooms := hclosed.rooms
  constructor
  · rw [peerSurplus, peerSurplus, hreg]
    show (((s₁.roomAt r).clients.foldl closeClient s₁).metrics.onPeerJoined : Int) -
      ((s₁.roomAt r).clients.foldl closeClient s₁).metrics.onPeerLeft - _ = _
    rw [hjoined, hleft]
    omega
  · rw [roomSurplus, roomSurplus, hreg]
    show (((s₁.roomAt r).clients.foldl closeClient s₁).metrics.onRoomCreated : Int) -
      ((s₁.roomAt r).clients.foldl closeClient s₁).metrics.onRoomRemoved - _ = _
    rw [hcreated, hremoved]

/-! ### One request -/

/-- A leave ends the session for the others when it finds no successor among them. -/
theorem endsForOthers_iff {actionId : String} {leave : LeaveRoom} {pick : Nat} {ctx : Ctx}
    (hs : RoomsWF u s) (pick' : Nat) (hfind : s.findRoomForClient x = some r) :
    EndsForOthers s (.handle g ctx ⟨actionId, x, some (.leave leave)⟩ pick) ↔
      (s.clientAt x).info.isOwner = true ∧ (s.roomAt r).clients.erase x ≠ [] ∧
        (s.removeLeft r x).findSuccessor r (s.clientAt x).browserId x pick' = none := by
  constructor
  · rintro ⟨r', hfind', hflag, hrest, hothers⟩
    obtain rfl := Option.some.inj (hfind.symm.trans hfind')
    refine ⟨hflag, hrest, ?_⟩
    cases hsucc : (s.removeLeft r x).findSuccessor r (s.clientAt x).browserId x pick' with
    | none => rfl
    | some successor =>
      obtain ⟨hb, hmem, hbrowser⟩ := findSuccessor_eq_some hsucc
      have hmem' := hmem
      rw [removeLeft_roomAt_self] at hmem'
      have hne : successor ≠ x := ((hs.nodup r).mem_erase_iff.mp hmem').1
      exact absurd ⟨hb, hbrowser⟩ (hothers successor (mem_removeLeft_clients hmem) hne)
  · rintro ⟨hflag, hrest, hsucc⟩
    refine ⟨r, hfind, hflag, hrest, fun c hc hcx => ?_⟩
    refine findSuccessor_eq_none hsucc ?_ ?_
    · rw [removeLeft_roomAt_self]
      exact (List.mem_erase_of_ne hcx).mpr hc
    · rw [show (s.removeLeft r x).clientAt c = s.clientAt c from rfl, (hs.member hc).1]
      exact hcx

/-- A leave keeps the gauges unless it ends a session, and then it leaves the peer gauge
behind. -/
theorem handleLeave_surplus (hs : RoomInv u s) (ctx : Ctx) (leave : LeaveRoom) (pick : Nat)
    (actionId : String) :
    (s.handleLeave u g x leave pick).1.roomSurplus = s.roomSurplus ∧
    ((s.handleLeave u g x leave pick).1.peerSurplus = s.peerSurplus ↔
      ¬ EndsForOthers s (.handle g ctx ⟨actionId, x, some (.leave leave)⟩ pick)) := by
  cases hfind : s.findRoomForClient x with
  | none =>
    unfold handleLeave
    rw [hfind]
    exact ⟨rfl, iff_of_true rfl (by simp [EndsForOthers, hfind])⟩
  | some r =>
    obtain ⟨⟨sid, hr⟩, hx⟩ := findRoomForClient_eq_some hfind
    have hleft : SameSurplus s (s.removeLeft r x) := .removeLeft hs.wf hr hx
    cases handleLeave_cases (u := u) (g := g) leave pick hfind with
    | plain hplain heq =>
      have hsame := hleft.trans (.announceLeft (u := u) (g := g) (r := r) (x := x)
        leave.reason ((s.removeLeft r x).clientCount r))
      rw [heq]
      refine ⟨hsame.2, iff_of_true hsame.1 fun hends => ?_⟩
      obtain ⟨hflag, hrest, -⟩ := (endsForOthers_iff hs.wf pick hfind).mp hends
      rcases hplain with h | h
      · simp [hflag] at h
      · exact hrest h
    | ended pick' hflag hrest hsucc heq =>
      obtain ⟨hpeers, hrooms⟩ := endRoom_surplus (u := u) (g := g) (x := x)
        (hs.wf.removeLeft (c := x) (r := r)) hr
      rw [heq]
      have hends : EndsForOthers s (.handle g ctx ⟨actionId, x, some (.leave leave)⟩ pick) :=
        (endsForOthers_iff hs.wf pick' hfind).mpr ⟨hflag, hrest, hsucc⟩
      refine ⟨hrooms.trans hleft.2, iff_of_false ?_ (not_not.mpr hends)⟩
      rw [hpeers, hleft.1, removeLeft_clientCount]
      -- the others are gone, and no `OnPeerLeft` was run for them
      have := List.length_pos_iff.mpr hrest
      omega
    | moved pick' successor hflag hrest hsucc heq =>
      have hsend : SendsOnly ((s.removeLeft r x).transferOwner r successor)
          (((s.removeLeft r x).transferOwner r successor).tick.broadcastToAll g r
            (((s.removeLeft r x).transferOwner r successor).ownerChangedEvent
              (((s.removeLeft r x).transferOwner r successor).uuid u) x successor)) :=
        (SendsOnly.tick _).trans (.deliverAll g _ _)
      have hsame := ((hleft.trans (.transferOwner _ r successor)).trans
        (.trafficOnly hsend.toTrafficOnly)).trans
        (.announceLeft (u := u) (g := g) (r := r) (x := x) leave.reason
          ((s.removeLeft r x).clientCount r))
      rw [heq]
      refine ⟨hsame.2, iff_of_true hsame.1 fun hends => ?_⟩
      have hnone := ((endsForOthers_iff hs.wf pick' hfind).mp hends).2.2
      exact absurd (hsucc.symm.trans hnone) (Option.some_ne_none successor)

theorem gaugesCount_serve_iff (hs : RoomInv u s) (hgauges : GaugesCount s) (req : Request) :
    GaugesCount (s.serve u req) ↔ ¬ EndsForOthers s req := by
  rw [gaugesCount_iff] at hgauges
  have hkept : ∀ {s'}, SameSurplus s s' → GaugesCount s' := by
    intro s' h
    rw [gaugesCount_iff, h.1, h.2]
    exact hgauges
  cases req with
  | receive c => exact iff_of_true (hkept (.trafficOnly (SendsOnly.receive s c).toTrafficOnly)) id
  | deliverAppMessage g sid c msg =>
    exact iff_of_true
      (hkept (.trafficOnly (deliverAppMessage_sendsOnly (u := u) sid msg).toTrafficOnly)) id
  | handle g ctx a pick =>
    obtain ⟨actionId, x, action⟩ := a
    have hbroadcast : ∀ action, GaugesCount (s.handleBroadcast u g x action).1 := by
      intro action
      cases hfind : s.findRoomForClient x with
      | none =>
        rw [handleBroadcast_none hfind]
        exact hkept (.refl s)
      | some r =>
        exact hkept ((SameSurplus.noteRelayed s r action).trans
          (.trafficOnly (handleBroadcast_sendsOnly hfind).toTrafficOnly))
    cases action with
    | none => exact iff_of_true (hkept (.refl s)) id
    | some action =>
      cases action with
      | join join => exact iff_of_true (hkept (.handleJoin hs)) id
      | leave leave =>
        obtain ⟨hrooms, hpeers⟩ := handleLeave_surplus (u := u) (g := g) (x := x) hs ctx
          leave pick actionId
        rw [← hpeers, gaugesCount_iff]
        show (s.handleLeave u g x leave pick).1.peerSurplus = 0 ∧
          (s.handleLeave u g x leave pick).1.roomSurplus = 0 ↔ _
        rw [hrooms, hgauges.1, hgauges.2]
        simp
      | presence presence =>
        exact iff_of_true
          (hkept (.trafficOnly (handlePresence_sendsOnly (u := u) presence).toTrafficOnly)) id
      | sceneUpdate _ | cursorUpdate _ | textUpdate _ | sceneInitRequest | sceneInitResponse _
      | credentialsChanged _ | titleChanged _ | appMessage _ =>
        exact iff_of_true (hbroadcast _) id

/-! ### Every run -/

/-- The gauges count what exists in every state of a run exactly when no owner's leave in
it ends a session for others. -/
theorem gauges_run_iff (u : UuidSource) (maxPeers : Int) (reqs : List Request) :
    (∀ pre, pre <+: reqs → GaugesCount (serveAll u (newCollabService maxPeers) pre)) ↔
    ∀ pre req, pre ++ [req] <+: reqs →
      ¬ EndsForOthers (serveAll u (newCollabService maxPeers) pre) req := by
  refine History.forall_prefix_iff ⟨rfl, rfl⟩ fun pre req hgauges => ?_
  rw [serveAll, List.foldl_append]
  exact gaugesCount_serve_iff (RoomInv.serveAll maxPeers pre) hgauges req

/-- An owner and a follower join, and the owner leaves: the follower is still counted. -/
theorem ownerGone_stillCounted : ¬ GaugesCount (serveAll .unary (newCollabService 10)
    [joinS1 true "b1", joinS1 false "b2",
      .handle (.direct 0) none ⟨"", "u", some (.leave ⟨""⟩)⟩ 0]) := by
  intro h
  exact absurd h.peers (by decide)

end CollabService

end MassRelay

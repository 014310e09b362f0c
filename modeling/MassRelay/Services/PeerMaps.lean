import MassRelay.Services.OwnerFlags
import MassRelay.Services.Welcome

/-!
# MassRelay.Services.PeerMaps

The maps of peers that the service hands out, and what they show to whoever reads them.

`GetPeerInfo` fills its map with the pointers of the clients. A map is read only when it is written
to a socket, and by then other calls may have come: it shows what its clients have become, those
among them that left since as well. All that changes in a client is its flag, which a leave sets in
the tab that it makes the owner. The flag of the owner that left stays, so a map that has both
shows two (`oneOwner_run_iff`).
-/

namespace MassRelay

namespace CollabService

variable {u : UuidSource} {s s' : CollabService} {g : Goroutine} {ctx : Ctx} {join : JoinRoom}
variable {r : RoomRef} {x : String} {pick : Nat} {pointers : List String}

/-- What a map with these pointers shows. -/
def read (s : CollabService) (pointers : List String) : List (String × PeerInfo) :=
  pointers.map fun c => (c, (s.clientAt c).info)

/-- A service, and the pointers in each map that it has handed out and that is not yet read. -/
structure Served where
  service : CollabService
  unread : List (List String) := []

inductive Exchange
  | request (req : Request)
  | getRoom (sessionId : String)
  /-- A map is written out, and read for the last time. -/
  | written (k : Nat)

/-- The map in the answer to a join. -/
def answered (u : UuidSource) (s : CollabService) : Request → List (List String)
  | .handle g ctx { action := some (.join join), .. } _ =>
    match (s.handleJoin u g ctx join).2 with
    | .event { event := .roomJoined w, .. } => [w.room.peers.map (·.1)]
    | _ => []
  | _ => []

def Served.step (u : UuidSource) (t : Served) : Exchange → Served
  | .request req =>
    { service := t.service.serve u req, unread := t.unread ++ answered u t.service req }
  | .getRoom sessionId =>
    { t with unread := t.unread ++
        ((t.service.getRoom sessionId).map fun room => room.peers.map (·.1)).toList }
  | .written k => { t with unread := t.unread.eraseIdx k }

def Served.run (u : UuidSource) (t : Served) (ms : List Exchange) : Served :=
  ms.foldl (Served.step u) t

/-- The tab that the leave of client `x` makes the owner. -/
def successorOf (s : CollabService) (x : String) (pick : Nat) : Option String :=
  (s.findRoomForClient x).bind fun r =>
    let (isOwner, browserId) := s.leaverFlags r x
    if isOwner && (s.removeLeft r x).clientCount r > 0 then
      (s.removeLeft r x).findSuccessor r browserId x pick
    else none

/-- At most one client of each room is flagged, the one that the room names, and no map shows two
owners, neither as it is returned nor when it is read. -/
structure Served.OneOwner (u : UuidSource) (t : Served) : Prop where
  service : CollabService.OneOwner u t.service
  unread : ∀ pointers ∈ t.unread, ShowsOneOwner (t.service.read pointers)

/-- A join as owner that is accepted into a room with an owner. -/
def Served.SecondOwner (u : UuidSource) (t : Served) : Exchange → Prop
  | .request req => CollabService.SecondOwner u t.service req
  | _ => False

/-- A leave makes a tab the owner that is in an unread map with somebody flagged. -/
def Served.HandsOver (t : Served) : Exchange → Prop
  | .request (.handle _ _ { clientId := x, action := some (.leave _), .. } pick) =>
    ∃ successor ∈ t.service.successorOf x pick, ∃ pointers ∈ t.unread, successor ∈ pointers ∧
      ∃ c ∈ pointers, c ≠ successor ∧ (t.service.clientAt c).info.isOwner = true
  | _ => False

/-! ### What a map shows later -/

theorem read_self : s.read (s.roomAt r).clients = s.getPeerInfo r := rfl

theorem pointers_getPeerInfo : (s.getPeerInfo r).map (·.1) = (s.roomAt r).clients := by
  rw [getPeerInfo, List.map_map]
  exact List.map_id _

theorem showsOneOwner_read : ShowsOneOwner (s.read pointers) ↔
    ∀ c ∈ pointers, ∀ c' ∈ pointers, (s.clientAt c).info.isOwner = true →
      (s.clientAt c').info.isOwner = true → c = c' := by
  simp [ShowsOneOwner, read]

theorem read_congr (h : ∀ c ∈ pointers, (s'.clientAt c).info = (s.clientAt c).info) :
    s'.read pointers = s.read pointers :=
  List.map_congr_left fun c hc => by rw [h c hc]

/-- Another client is flagged. -/
theorem showsOneOwner_flag {successor : String} (h : ShowsOneOwner (s.read pointers))
    (hflags : ∀ c, (s'.clientAt c).info.isOwner = true ↔
      c = successor ∨ (s.clientAt c).info.isOwner = true) :
    ShowsOneOwner (s'.read pointers) ↔ ¬ (successor ∈ pointers ∧
      ∃ c ∈ pointers, c ≠ successor ∧ (s.clientAt c).info.isOwner = true) := by
  rw [showsOneOwner_read] at h ⊢
  simp only [hflags]
  constructor
  · rintro hone ⟨hmem, c, hc, hne, hflag⟩
    exact hne (hone c hc successor hmem (Or.inr hflag) (Or.inl rfl))
  · intro hnone c hc c' hc' hflag hflag'
    rcases hflag with rfl | hflag
    · rcases hflag' with rfl | hflag'
      · rfl
      · by_contra hne
        exact hnone ⟨hc, c', hc', Ne.symm hne, hflag'⟩
    · rcases hflag' with rfl | hflag'
      · by_contra hne
        exact hnone ⟨hc', c, hc, hne, hflag⟩
      · exact h c hc c' hc' hflag hflag'

/-! ### What a request changes in the clients that were there -/

theorem accept_info {sid c : String} (hc : Issued u s c) (hsame : SameRooms s s') :
    ((s'.accept u g ctx join sid r).1.clientAt c).info = (s.clientAt c).info := by
  rw [(SameRooms.accept (u := u) s').info, enrolled_clientAt,
    Function.update_of_ne (hc.mono hsame.nextUuid).ne_uuid, hsame.info]

theorem handleJoin_info {c : String} (hc : Issued u s c) :
    ((s.handleJoin u g ctx join).1.clientAt c).info = (s.clientAt c).info := by
  have hlook := SameRooms.atLookup (u := u) s join
  have hcase := handleJoin_case (u := u) s g ctx join
  generalize s.handleJoin u g ctx join = result at hcase ⊢
  cases hcase with
  | forbidden _ _ _ => rfl
  | lost _ _ _ _ => exact (hlook.trans (.tick _)).info c
  | turnedAway r _ _ hrefuse =>
    exact (hlook.trans (enterRoom_refused ((atLookup_refuses s r).trans hrefuse))).info c
  | joined r _ _ _ => exact accept_info hc (hlook.trans (.declareEncrypted _ r join))
  | createdRefused _ hr _ hrefuse =>
    rw [(enterRoom_refused hrefuse).info, (atCreated_eq hr).2.2.2]
  | created _ hr _ _ =>
    have hcreated : Issued u (s.atCreated u join) c := hc.mono (atCreated_nextUuid s join)
    rw [accept_info hcreated (.declareEncrypted _ _ join), (atCreated_eq hr).2.2.2]

theorem announceLeft_info (s : CollabService) (reason : String) (n : Nat) (c : String) :
    ((s.announceLeft u g x reason r n).1.clientAt c).info = (s.clientAt c).info := by
  have hsent : SameRooms s (s.tick.broadcastToAll g r (peerLeftEvent (s.uuid u) x reason n)) :=
    (SameRooms.tick s).trans (SameRooms.deliverAll g _ _)
  unfold announceLeft
  dsimp only
  rw [(SameRooms.tick _).info]
  split
  · rw [removeRoom_clientAt, hsent.info]
  · exact hsent.info c

theorem endRoom_info (s : CollabService) (c : String) :
    ((s.endRoom u g x r).1.clientAt c).info = (s.clientAt c).info := by
  have hsent : SameRooms s (s.tick.broadcastToAll g r (ownerDisconnectedEvent (s.uuid u) x)) :=
    (SameRooms.tick s).trans (SameRooms.deliverAll g _ _)
  unfold endRoom
  dsimp only
  rw [(SameRooms.tick _).info, removeRoom_clientAt, closeAllClients, modifyRoom_clientAt,
    (SameRooms.closeClients _ _).info, hsent.info]

theorem transferOwner_info (s : CollabService) (successor c : String) :
    ((s.transferOwner r successor).clientAt c).info.isOwner = true ↔
      c = successor ∨ (s.clientAt c).info.isOwner = true := by
  by_cases hc : c = successor
  · simp [hc, transferOwner]
  · rw [transferOwner_clientAt_of_ne _ hc]
    simp [hc]

/-- A leave flags the successor, if it finds one, and nobody loses a flag. -/
theorem handleLeave_flags (s : CollabService) (leave : LeaveRoom) (c : String) :
    ((s.handleLeave u g x leave pick).1.clientAt c).info.isOwner = true ↔
      s.successorOf x pick = some c ∨ (s.clientAt c).info.isOwner = true := by
  unfold handleLeave successorOf
  cases s.findRoomForClient x with
  | none => simp
  | some r =>
    rw [Option.bind_some]
    dsimp only
    split
    · cases (s.removeLeft r x).findSuccessor r (s.leaverFlags r x).2 x pick with
      | none =>
        dsimp only
        rw [endRoom_info]
        simp [removeLeft, removeClient]
      | some successor =>
        dsimp only
        rw [announceLeft_info, broadcastToAll, (SameRooms.deliverAll g _ _).info,
          (SameRooms.tick _).info, transferOwner_info, Option.some.injEq, eq_comm]
        rfl
    · rw [announceLeft_info]
      simp [removeLeft, removeClient]

def IsLeave (req : Request) : Prop := ∃ g ctx actionId x leave pick,
  req = .handle g ctx { actionId, clientId := x, action := some (.leave leave) } pick

theorem serve_info {req : Request} {c : String} (hc : Issued u s c) (hleave : ¬ IsLeave req) :
    ((s.serve u req).clientAt c).info = (s.clientAt c).info := by
  cases req with
  | receive c' => exact (SameRooms.receive s c').info c
  | deliverAppMessage g sid c' msg => exact (SameRooms.deliverAppMessage g sid c' msg s).info c
  | handle g ctx a pick =>
    obtain ⟨actionId, x, action⟩ := a
    cases action with
    | none => rfl
    | some action =>
      cases action with
      | join join => exact handleJoin_info hc
      | leave leave => exact absurd ⟨g, ctx, actionId, x, leave, pick, rfl⟩ hleave
      | presence p => exact (SameRooms.handlePresence g _ p s).info c
      | sceneUpdate _ | cursorUpdate _ | textUpdate _ | sceneInitRequest | sceneInitResponse _
      | credentialsChanged _ | titleChanged _ | appMessage _ =>
        exact (SameRooms.handleBroadcast g _ _ s).info c

/-! ### What is handed out -/

/-- The answer to a join has the clients of a room before it, or none. -/
theorem mem_answered {req : Request} (h : pointers ∈ answered u s req) :
    (∃ sid r, s.getRoomByID sid = some r ∧ pointers = (s.roomAt r).clients) ∨ pointers = [] := by
  unfold answered at h
  split at h
  · rename_i g ctx actionId x join pick
    split at h
    · rename_i eventId fromClientId w hanswer
      obtain rfl := List.mem_singleton.mp h
      have hrefused : ∀ {a : Answer}, a.refuses = true →
          a = .event ⟨eventId, fromClientId, .roomJoined w⟩ → False := by
        rintro a ha rfl
        simp [Answer.refuses] at ha
      have hwelcome : ∀ {s₀ : CollabService} {sid : String} {r : RoomRef},
          (s₀.accept u g ctx join sid r).2 = .event ⟨eventId, fromClientId, .roomJoined w⟩ →
            w.room.peers.map (·.1) = (s₀.roomAt r).clients := by
        intro s₀ sid r haccept
        obtain ⟨e, heq, he⟩ := accept_answer u g ctx join sid r s₀
        obtain rfl := Answer.event.inj (heq.symm.trans haccept)
        obtain rfl := Event.roomJoined.inj he
        exact pointers_getPeerInfo
      have hcase := handleJoin_case (u := u) s g ctx join
      generalize s.handleJoin u g ctx join = result at hcase hanswer
      cases hcase with
      | forbidden e _ he => exact (hrefused he hanswer).elim
      | lost e _ _ he => exact (hrefused he hanswer).elim
      | turnedAway r _ _ hrefuse =>
        exact (hrefused (enterRoom_answer_refuses.trans ((atLookup_refuses s r).trans hrefuse))
          hanswer).elim
      | createdRefused _ _ _ hrefuse =>
        exact (hrefused (enterRoom_answer_refuses.trans hrefuse) hanswer).elim
      | joined r _ hr _ =>
        have hsame : SameRooms s ((s.atLookup u join).declareEncrypted r join) :=
          (SameRooms.atLookup s join).trans (SameRooms.declareEncrypted _ r join)
        exact Or.inl ⟨_, r, hr, (hwelcome hanswer).trans (hsame.clients r)⟩
      | created _ hr _ _ =>
        refine Or.inr ((hwelcome hanswer).trans ?_)
        rw [(SameRooms.declareEncrypted _ _ join).clients, (atCreated_eq hr).2.2.1,
          Function.update_self]
    · exact absurd h List.not_mem_nil
  · exact absurd h List.not_mem_nil

/-- The rooms are in order, and the unread maps have clients that were there. -/
structure Served.Held (u : UuidSource) (t : Served) : Prop where
  rooms : RoomInv u t.service
  issued : ∀ pointers ∈ t.unread, ∀ c ∈ pointers, Issued u t.service c

variable {t : Served} {m : Exchange}

theorem RoomInv.issued (hs : RoomInv u s) {c : String} (hc : c ∈ (s.roomAt r).clients) :
    Issued u s c := (hs.wf.member hc).2.2

theorem Served.Held.step (h : t.Held u) (m : Exchange) : (t.step u m).Held u := by
  cases m with
  | request req =>
    have hnext := serve_nextUuid (u := u) t.service req
    refine ⟨h.rooms.serve req, fun pointers hpointers c hc => ?_⟩
    rcases List.mem_append.mp hpointers with hold | hnew
    · exact (h.issued pointers hold c hc).mono hnext
    · rcases mem_answered hnew with ⟨sid, r, -, rfl⟩ | rfl
      · exact (h.rooms.issued hc).mono hnext
      · exact absurd hc List.not_mem_nil
  | getRoom sessionId =>
    refine ⟨h.rooms, fun pointers hpointers c hc => ?_⟩
    rcases List.mem_append.mp hpointers with hold | hnew
    · exact h.issued pointers hold c hc
    · obtain ⟨room, hroom, rfl⟩ := Option.map_eq_some_iff.mp (Option.mem_toList.mp hnew)
      obtain ⟨r, -, rfl⟩ := Option.map_eq_some_iff.mp hroom
      rw [toProto, pointers_getPeerInfo] at hc
      exact h.rooms.issued hc
  | written k =>
    exact ⟨h.rooms,
      fun pointers hpointers => h.issued pointers (List.mem_of_mem_eraseIdx hpointers)⟩

/-- A map that a request hands out shows one owner once the request is served. -/
theorem OneFlag.showsOneOwner (hs : RoomInv u s) (hone : OneFlag s) {req : Request}
    (h : pointers ∈ answered u s req) : ShowsOneOwner ((s.serve u req).read pointers) := by
  rcases mem_answered h with ⟨sid, r, hr, rfl⟩ | rfl
  · have hleave : ¬ IsLeave req := by
      rintro ⟨g, ctx, actionId, x, leave, pick, rfl⟩
      simp [answered] at h
    rw [read_congr fun c hc => serve_info (hs.issued hc) hleave, read_self]
    exact hone.shows hr
  · simp [ShowsOneOwner, read]

/-- What makes a second owner in a map that was handed out before. -/
theorem Served.OneOwner.unread_iff (h : t.OneOwner u) (hheld : t.Held u) (req : Request) :
    (∀ pointers ∈ t.unread, ShowsOneOwner ((t.service.serve u req).read pointers)) ↔
      ¬ t.HandsOver (.request req) := by
  by_cases hleave : IsLeave req
  · obtain ⟨g, ctx, actionId, x, leave, pick, rfl⟩ := hleave
    change (∀ pointers ∈ t.unread,
      ShowsOneOwner ((t.service.handleLeave u g x leave pick).1.read pointers)) ↔ ¬ _
    cases hsucc : t.service.successorOf x pick with
    | none =>
      refine iff_of_true (fun pointers hpointers => ?_) (by simp [Served.HandsOver, hsucc])
      have hshows := h.unread pointers hpointers
      rw [showsOneOwner_read] at hshows ⊢
      simpa only [handleLeave_flags, hsucc, reduceCtorEq, false_or] using hshows
    | some successor =>
      have hflags : ∀ c, ((t.service.handleLeave u g x leave pick).1.clientAt c).info.isOwner =
          true ↔ c = successor ∨ (t.service.clientAt c).info.isOwner = true := fun c => by
        rw [handleLeave_flags, hsucc, Option.some.injEq, eq_comm]
      have hover : t.HandsOver (.request (.handle g ctx
          { actionId, clientId := x, action := some (.leave leave) } pick)) ↔
          ∃ pointers ∈ t.unread, successor ∈ pointers ∧
            ∃ c ∈ pointers, c ≠ successor ∧ (t.service.clientAt c).info.isOwner = true := by
        simp only [Served.HandsOver, hsucc, Option.mem_some_iff, exists_eq_left']
      rw [hover]
      constructor
      · rintro hall ⟨pointers, hpointers, hbad⟩
        exact (showsOneOwner_flag (h.unread pointers hpointers) hflags).mp (hall pointers hpointers)
          hbad
      · intro hnone pointers hpointers
        refine (showsOneOwner_flag (h.unread pointers hpointers) hflags).mpr fun hbad => ?_
        exact hnone ⟨pointers, hpointers, hbad⟩
  · refine iff_of_true (fun pointers hpointers => ?_) fun hover => ?_
    · rw [read_congr fun c hc => serve_info (hheld.issued pointers hpointers c hc) hleave]
      exact h.unread pointers hpointers
    · unfold Served.HandsOver at hover
      split at hover
      · rename_i heq
        exact hleave ⟨_, _, _, _, _, _, Exchange.request.inj heq⟩
      · exact hover

/-- What makes a second owner, in a room or in a map. -/
theorem Served.OneOwner.step_iff (hheld : t.Held u) (h : t.OneOwner u) :
    (t.step u m).OneOwner u ↔ ¬ (t.SecondOwner u m ∨ t.HandsOver m) := by
  have hflag : OneFlag t.service := h.service.flagged
  cases m with
  | getRoom sessionId =>
    refine iff_of_true ⟨h.service, fun pointers hpointers => ?_⟩ (not_or.mpr ⟨id, id⟩)
    rcases List.mem_append.mp hpointers with hold | hnew
    · exact h.unread pointers hold
    · obtain ⟨room, hroom, rfl⟩ := Option.map_eq_some_iff.mp (Option.mem_toList.mp hnew)
      obtain ⟨r, hr, rfl⟩ := Option.map_eq_some_iff.mp hroom
      rw [toProto, pointers_getPeerInfo]
      exact hflag.shows hr
  | written k =>
    refine iff_of_true ⟨h.service, fun pointers hpointers => ?_⟩ (not_or.mpr ⟨id, id⟩)
    exact h.unread pointers (List.mem_of_mem_eraseIdx hpointers)
  | request req =>
    have hservice : CollabService.OneOwner u (t.service.serve u req) ↔
        ¬ CollabService.SecondOwner u t.service req :=
      oneOwner_iff.trans (hflag.serve_iff hheld.rooms req)
    have hunread := h.unread_iff hheld req
    rw [not_or]
    refine ⟨fun hstep => ⟨hservice.mp hstep.service, hunread.mp fun pointers hpointers => ?_⟩,
      fun hbad => ⟨hservice.mpr hbad.1, fun pointers hpointers => ?_⟩⟩
    · exact hstep.unread pointers (List.mem_append_left _ hpointers)
    · rcases List.mem_append.mp hpointers with hold | hnew
      · exact hunread.mpr hbad.2 pointers hold
      · exact hflag.showsOneOwner hheld.rooms hnew

/-! ### Every run -/

theorem Served.Held.run (h : t.Held u) (ms : List Exchange) : (t.run u ms).Held u := by
  induction ms generalizing t with
  | nil => exact h
  | cons m ms ih => exact ih (h.step m)

theorem held_start (u : UuidSource) (maxPeers : Int) :
    Served.Held u { service := newCollabService maxPeers } :=
  ⟨RoomInv.serveAll maxPeers [], fun _ h => absurd h List.not_mem_nil⟩

/-- In every state of a run, at most one client of each room is flagged, the one that the room
names, and no map that is still to be read shows two owners, exactly when no owner of the run joins
a room that has one, and no leave makes a tab the owner while there is an unread map with that tab
and with somebody flagged. -/
theorem oneOwner_run_iff (u : UuidSource) (maxPeers : Int) (ms : List Exchange) :
    (∀ pre, pre <+: ms → (Served.run u { service := newCollabService maxPeers } pre).OneOwner u) ↔
    ∀ pre m, pre ++ [m] <+: ms →
      ¬ ((Served.run u { service := newCollabService maxPeers } pre).SecondOwner u m ∨
        (Served.run u { service := newCollabService maxPeers } pre).HandsOver m) := by
  refine History.forall_prefix_iff ?_ fun pre m hone => ?_
  · refine ⟨oneOwner_iff.mpr fun sid r c hr => ?_, fun _ h => absurd h List.not_mem_nil⟩
    simp [Served.run, newCollabService, getRoomByID] at hr
  · rw [Served.run, List.foldl_append]
    exact hone.step_iff ((held_start u maxPeers).run pre)

/-- An owner leaves before a viewer has read the answer to its join, and a tab is its successor. -/
def lateReader : List Exchange :=
  [.request (joinS1 true "b1"), .request (joinS1 false "b1"), .request (joinS1 false "b2"),
    .request (.handle (.direct 0) none
      { clientId := "u", action := some (.leave { reason := "" }) } 0)]

/-- The owner's second tab makes a second owner in the room, and the late reader finds one in its
map. -/
theorem secondTab_twoOwners :
    ¬ Served.OneOwner .unary (Served.run .unary { service := newCollabService 10 }
      [.request (joinS1 true "b1"), .request (joinS1 true "b1")]) ∧
    ¬ Served.OneOwner .unary (Served.run .unary { service := newCollabService 10 } lateReader) := by
  constructor
  · intro h
    have howner := h.service.flagged "s1" 0 "u" (by decide) (by decide) (by decide)
    exact absurd howner (by decide)
  · intro h
    have hshows := showsOneOwner_read.mp (h.unread ["uuuu", "u"] (by decide))
    exact absurd (hshows "uuuu" (by decide) "u" (by decide)) (by decide)

end CollabService

end MassRelay

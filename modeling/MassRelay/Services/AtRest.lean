import MassRelay.Services.Traffic

/-!
# MassRelay.Services.AtRest

What a request does to the rooms does not depend on the traffic.

The handlers read the rooms, the ids and what the clients are, and never a queue. So two
services that are the same at rest stay so under the same request (`SameRest.serve`), and
of two runs whose requests differ in what they send only, the rooms are the same.
-/

namespace MassRelay

namespace CollabService

variable {u : UuidSource} {s s' t t' : CollabService} {g : Goroutine} {ctx : Ctx}
variable {join : JoinRoom} {r : RoomRef} {sid x : String}

/-- The services differ in their traffic at most. -/
def SameRest (s t : CollabService) : Prop := s.atRest = t.atRest

/-- An update of a client, seen at rest. -/
theorem update_atRest (clientAt : String → CollabClient) (c : String) (cl : CollabClient) :
    (fun c' => (Function.update clientAt c cl c').atRest) =
      Function.update (fun c' => (clientAt c').atRest) c cl.atRest := by
  funext c'
  by_cases hc : c' = c
  · subst hc
    rw [Function.update_self, Function.update_self]
  · rw [Function.update_of_ne hc, Function.update_of_ne hc]

theorem addJoined_atRest (s : CollabService) (r : RoomRef) (cl : CollabClient) :
    (s.addJoined r cl).atRest = s.atRest.addJoined r cl.atRest := by
  simp only [addJoined, addClient, modifyRoom, atRest, update_atRest]
  rfl

theorem transferOwner_atRest (s : CollabService) (r : RoomRef) (successor : String) :
    (s.transferOwner r successor).atRest = s.atRest.transferOwner r successor := by
  simp only [transferOwner, modifyClient, modifyRoom, atRest, update_atRest]
  rfl

theorem removeRoom_atRest (s : CollabService) (sid : String) :
    (s.removeRoom sid).atRest = s.atRest.removeRoom sid := by
  have hrooms : s.atRest.rooms = s.rooms := rfl
  have hempty : s.atRest.isEmpty = s.isEmpty := rfl
  unfold removeRoom
  rw [hrooms, hempty]
  cases s.rooms.lookup sid with
  | none => rfl
  | some r =>
    dsimp only
    split <;> rfl

theorem closeAllClients_atRest (s : CollabService) (r : RoomRef) :
    (s.closeAllClients r).atRest =
      s.atRest.modifyRoom r fun room => { room with clients := [] } :=
  congrArg (modifyRoom · r fun room => { room with clients := [] })
    (closeClients_atRest s (s.roomAt r).clients)

theorem resolveSession_atRest (s : CollabService) (join : JoinRoom) :
    s.atRest.resolveSession u join =
      ((s.resolveSession u join).1, (s.resolveSession u join).2.atRest) := by
  have hhint : s.atRest.hintIndex = s.hintIndex := rfl
  unfold resolveSession
  rw [hhint]
  split
  · rfl
  · dsimp only
    generalize (if join.clientHint ≠ "" then _ else "" : String) = existing
    split <;> rfl

theorem indexHint_atRest (s : CollabService) (hint sid : String) :
    s.atRest.indexHint hint sid = (s.indexHint hint sid).atRest := by
  unfold indexHint
  split <;> rfl

theorem getOrCreateRoom_atRest (s : CollabService) (sid : String) :
    s.atRest.getOrCreateRoom sid =
      ((s.getOrCreateRoom sid).1, (s.getOrCreateRoom sid).2.atRest) := by
  have hrooms : s.atRest.rooms = s.rooms := rfl
  unfold getOrCreateRoom
  rw [hrooms]
  cases s.rooms.lookup sid <;> rfl

namespace SameRest

theorem refl (s : CollabService) : SameRest s s := rfl

theorem trans (h : SameRest s t) (h' : SameRest t t') : SameRest s t' := Eq.trans h h'

/-- Whatever a handler reads is read off the state at rest. -/
theorem read {α : Type} (h : SameRest s t) (f : CollabService → α) : f s.atRest = f t.atRest :=
  congrArg f h

theorem sends (h : SameRest s t) (hs : s'.atRest = s.atRest) (ht : t'.atRest = t.atRest) :
    SameRest s' t' := hs.trans (h.trans ht.symm)

theorem tick (h : SameRest s t) : SameRest s.tick t.tick := congrArg CollabService.tick h

theorem modifyRoom (h : SameRest s t) (r : RoomRef) (f : CollabRoom → CollabRoom) :
    SameRest (s.modifyRoom r f) (t.modifyRoom r f) := by
  have hmodified : s.atRest.modifyRoom r f = t.atRest.modifyRoom r f := by rw [h]
  exact hmodified

theorem removeRoom (h : SameRest s t) (sid : String) :
    SameRest (s.removeRoom sid) (t.removeRoom sid) := by
  unfold SameRest
  rw [removeRoom_atRest, removeRoom_atRest, h]

theorem deliverAll (h : SameRest s t) (g : Goroutine)
    (targets targets' : List (String × CollabEvent)) :
    SameRest (s.deliverAll g targets) (t.deliverAll g targets') :=
  h.sends (deliverAll_atRest g s targets) (deliverAll_atRest g t targets')

/-! ### Joining -/

theorem accept (h : SameRest s t) :
    SameRest (s.accept u g ctx join sid r).1 (t.accept u g ctx join sid r).1 := by
  have huuid : s.uuid u = t.uuid u := h.read (CollabService.uuid u)
  have hpeers : s.getPeerInfo r = t.getPeerInfo r := h.read (getPeerInfo · r)
  unfold CollabService.accept
  dsimp only
  rw [huuid, hpeers]
  refine SameRest.sends (SameRest.tick ?_) (noteProgress_atRest _ _ _) (noteProgress_atRest _ _ _)
  refine SameRest.deliverAll ?_ _ _ _
  refine SameRest.sends (SameRest.tick ?_) (noteProgress_atRest _ _ _) (noteProgress_atRest _ _ _)
  refine SameRest.modifyRoom ?_ _ _
  unfold SameRest
  rw [addJoined_atRest, addJoined_atRest, h.tick]

theorem enterRoom (h : SameRest s t) :
    SameRest (s.enterRoom u g ctx join sid r).1 (t.enterRoom u g ctx join sid r).1 := by
  have hfull : s.isFull r = t.isFull r := h.read (isFull · r)
  have howned : s.ownedElsewhere r join.browserId = t.ownedElsewhere r join.browserId :=
    h.read (ownedElsewhere · r join.browserId)
  have hdeclared : SameRest (s.declareEncrypted r join) (t.declareEncrypted r join) := by
    unfold declareEncrypted
    split
    · exact h.modifyRoom _ _
    · exact h
  have henc : ((s.declareEncrypted r join).roomAt r).encrypted =
      ((t.declareEncrypted r join).roomAt r).encrypted := hdeclared.read (roomAt · r |>.encrypted)
  unfold CollabService.enterRoom
  dsimp only
  rw [hfull, howned, henc]
  split
  · exact h.tick
  · split
    · exact h
    · split
      · exact hdeclared.tick
      · exact hdeclared.accept

theorem handleJoin (h : SameRest s t) :
    SameRest (s.handleJoin u g ctx join).1 (t.handleJoin u g ctx join).1 := by
  have hsid : (s.resolveSession u join).1 = (t.resolveSession u join).1 := by
    have := h.read (resolveSession u · join)
    rw [resolveSession_atRest, resolveSession_atRest] at this
    exact (Prod.mk.inj this).1
  have hlook : SameRest
      ((s.resolveSession u join).2.indexHint join.clientHint (s.resolveSession u join).1)
      ((t.resolveSession u join).2.indexHint join.clientHint (t.resolveSession u join).1) := by
    have := h.read (resolveSession u · join)
    rw [resolveSession_atRest, resolveSession_atRest] at this
    unfold SameRest
    rw [← indexHint_atRest, ← indexHint_atRest, hsid]
    rw [(Prod.mk.inj this).2]
  unfold CollabService.handleJoin
  split
  · exact h.tick
  · dsimp only
    rw [hsid] at hlook ⊢
    generalize (s.resolveSession u join).2.indexHint join.clientHint
      (t.resolveSession u join).1 = s₁ at hlook ⊢
    generalize (t.resolveSession u join).2.indexHint join.clientHint
      (t.resolveSession u join).1 = t₁ at hlook ⊢
    generalize (t.resolveSession u join).1 = sid
    have hfind : s₁.getRoomByID sid = t₁.getRoomByID sid := hlook.read (getRoomByID · sid)
    have hroom := hlook.read (getOrCreateRoom · sid)
    rw [getOrCreateRoom_atRest, getOrCreateRoom_atRest] at hroom
    rw [hfind]
    split
    · exact hlook.tick
    · rw [(Prod.mk.inj hroom).1]
      exact enterRoom (Prod.mk.inj hroom).2

/-! ### Leaving -/

theorem announceLeft (h : SameRest s t) (reason : String) (n : Nat) :
    SameRest (s.announceLeft u g x reason r n).1 (t.announceLeft u g x reason r n).1 := by
  unfold CollabService.announceLeft
  dsimp only
  refine SameRest.tick ?_
  have hsent := h.tick.deliverAll g
    ((s.tick.roomAt r).clients.map (·, peerLeftEvent (s.uuid u) x reason n))
    ((t.tick.roomAt r).clients.map (·, peerLeftEvent (t.uuid u) x reason n))
  have hsid := hsent.read (roomAt · r |>.sessionId)
  split
  · exact (congrArg (fun sid => SameRest _ (CollabService.removeRoom _ sid)) hsid).mp
      (hsent.removeRoom _)
  · exact hsent

theorem endRoom (h : SameRest s t) :
    SameRest (s.endRoom u g x r).1 (t.endRoom u g x r).1 := by
  unfold CollabService.endRoom
  dsimp only
  refine SameRest.tick ?_
  have hsent := h.tick.deliverAll g
    ((s.tick.roomAt r).clients.map (·, ownerDisconnectedEvent (s.uuid u) x))
    ((t.tick.roomAt r).clients.map (·, ownerDisconnectedEvent (t.uuid u) x))
  have hclosed := (hsent.modifyRoom r fun room => { room with clients := [] }).sends
    (closeAllClients_atRest _ r) (closeAllClients_atRest _ r)
  have hsid := hclosed.read (roomAt · r |>.sessionId)
  exact (congrArg (fun sid => SameRest _ (CollabService.removeRoom _ sid)) hsid).mp
    (hclosed.removeRoom _)

theorem handleLeave (h : SameRest s t) (leave : LeaveRoom) (pick : Nat) :
    SameRest (s.handleLeave u g x leave pick).1 (t.handleLeave u g x leave pick).1 := by
  have hfind : s.findRoomForClient x = t.findRoomForClient x := h.read (findRoomForClient · x)
  unfold CollabService.handleLeave
  rw [hfind]
  split
  · exact h
  · rename_i r hr
    have hflags : s.leaverFlags r x = t.leaverFlags r x := h.read (leaverFlags · r x)
    have hremoved : SameRest (s.removeLeft r x) (t.removeLeft r x) :=
      congrArg (removeLeft · r x) h
    dsimp only
    rw [hflags]
    generalize s.removeLeft r x = s₁ at hremoved ⊢
    generalize t.removeLeft r x = t₁ at hremoved ⊢
    have hcount : s₁.clientCount r = t₁.clientCount r := hremoved.read (clientCount · r)
    have hsucc : s₁.findSuccessor r (t.leaverFlags r x).2 x pick =
        t₁.findSuccessor r (t.leaverFlags r x).2 x pick :=
      hremoved.read (findSuccessor · r (t.leaverFlags r x).2 x pick)
    rw [hcount, hsucc]
    split
    · split
      · exact hremoved.endRoom
      · rename_i successor hsome
        have hmoved : SameRest (s₁.transferOwner r successor) (t₁.transferOwner r successor) := by
          unfold SameRest
          rw [transferOwner_atRest, transferOwner_atRest, hremoved]
        exact announceLeft (hmoved.tick.deliverAll g _ _) _ _
    · exact hremoved.announceLeft _ _

/-! ### Relaying -/

theorem noteRelayed (h : SameRest s t) (action : Action) :
    SameRest (s.noteRelayed r action) (t.noteRelayed r action) := by
  cases action with
  | credentialsChanged cc =>
    simp only [CollabService.noteRelayed]
    split
    · exact h.modifyRoom _ _
    · exact h
  | titleChanged tc => exact h.modifyRoom _ _
  | _ => exact h

theorem sendEach (h : SameRest s t) (ids : List String) (build build' : String → CollabEvent) :
    SameRest (s.sendEach g r ids build).1 (t.sendEach g r ids build').1 ∧
      (s.sendEach g r ids build).2 = (t.sendEach g r ids build').2 := by
  have hloop : s.eachLoop r ids [] = t.eachLoop r ids [] := by
    have hread : ∀ (s : CollabService) (ids seen : List String),
        s.atRest.eachLoop r ids seen = s.eachLoop r ids seen := by
      intro s ids
      induction ids with
      | nil => exact fun _ => rfl
      | cons id ids ih =>
        intro seen
        simp only [eachLoop, ih]
        rfl
    rw [← hread s, ← hread t, h]
  unfold CollabService.sendEach
  rw [hloop]
  exact ⟨h.deliverAll g _ _, rfl⟩

theorem countRelay (h : SameRest s t) : SameRest s.countRelay t.countRelay := h.sends rfl rfl

theorem handlePresence (h : SameRest s t) (p : PresenceUpdate) :
    SameRest (s.handlePresence u g x p).1 (t.handlePresence u g x p).1 := by
  have hfind : s.findRoomForClient x = t.findRoomForClient x := h.read (findRoomForClient · x)
  unfold CollabService.handlePresence
  rw [hfind]
  split
  · exact h
  · exact h.tick.deliverAll g _ _

theorem handleBroadcast (h : SameRest s t) (action : Action) :
    SameRest (s.handleBroadcast u g x action).1 (t.handleBroadcast u g x action).1 := by
  have hfind : s.findRoomForClient x = t.findRoomForClient x := h.read (findRoomForClient · x)
  unfold CollabService.handleBroadcast
  rw [hfind]
  split
  · exact h
  · rename_i r hr
    have hnoted := (h.tick.noteRelayed (r := r) action)
    split
    · exact h.tick
    · dsimp only
      split
      · exact (hnoted.deliverAll g _ _).countRelay
      · rename_i msg hmsg
        obtain ⟨hsent, hmissing⟩ := hnoted.sendEach (g := g) (r := r) msg.toClientIds
          (addressedEvent (s.uuid u) x msg) (addressedEvent (t.uuid u) x msg)
        unfold deliverAddressed
        rw [hmissing]
        split
        · exact hsent.countRelay
        · exact hsent.countRelay.tick

theorem deliverAppMessage (h : SameRest s t) (msg : AppMessage) :
    SameRest (s.deliverAppMessage u g sid x msg).1 (t.deliverAppMessage u g sid x msg).1 := by
  have hfind : s.getRoomByID sid = t.getRoomByID sid := h.read (getRoomByID · sid)
  unfold CollabService.deliverAppMessage
  rw [hfind]
  split
  · exact h
  · rename_i r hr
    dsimp only
    split
    · exact (h.tick.deliverAll g _ _).countRelay
    · exact (h.tick.sendEach (g := g) (r := r) msg.toClientIds _ _).1.countRelay

/-- The same request leads to the same state at rest. -/
theorem serve (h : SameRest s t) (req : Request) : SameRest (s.serve u req) (t.serve u req) := by
  cases req with
  | receive c => exact h.sends (receive_atRest s c) (receive_atRest t c)
  | deliverAppMessage g sid c msg => exact h.deliverAppMessage msg
  | handle g ctx a pick =>
    obtain ⟨actionId, x, action⟩ := a
    cases action with
    | none => exact h
    | some action =>
      cases action with
      | join join => exact h.handleJoin
      | leave leave => exact h.handleLeave leave pick
      | presence p => exact h.handlePresence p
      | sceneUpdate _ | cursorUpdate _ | textUpdate _ | sceneInitRequest | sceneInitResponse _
      | credentialsChanged _ | titleChanged _ | appMessage _ => exact h.handleBroadcast _

end SameRest

end CollabService

end MassRelay

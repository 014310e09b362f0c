import MassRelay.Services.Call

/-!
# MassRelay.Services.Steps

What one step of a call does to the service, as the other goroutines see it.

`Effect` says once what a step can do (`apply_effect`); what is proved of every step
is proved of every effect. `Grow` is what they all respect: ids and rooms are handed
out once, a room keeps its session, a client that left a room does not come back, the
slow flag stays up, and queues and histories only get longer. `Rely g` is what a
goroutine `g` can count on besides when someone else makes the step: a room it reads
stays as it is, and nobody delivers in its name. `Base` is the invariant that needs no
more than that.
-/

namespace MassRelay

namespace CollabService

variable {u : UuidSource} {s s' s'' : CollabService} {g g' : Goroutine} {o : ServiceOp}

/-- An id that was handed out. -/
def Issued (u : UuidSource) (s : CollabService) (c : String) : Prop :=
  ∃ k < s.nextUuid, c = u.new k

theorem Issued.mono {c : String} (h : s.nextUuid ≤ s'.nextUuid) (hc : Issued u s c) :
    Issued u s' c := by
  obtain ⟨k, hk, rfl⟩ := hc
  exact ⟨k, hk.trans_le h, rfl⟩

theorem uuid_not_issued : ¬ Issued u s (s.uuid u) := by
  rintro ⟨k, hk, hck⟩
  exact hk.ne' (u.new_injective hck)

theorem Issued.ne_uuid {c : String} (hc : Issued u s c) : c ≠ s.uuid u :=
  fun h => uuid_not_issued (h ▸ hc)

/-! ### What a step can do -/

/-- A step that leaves the rooms, the clients and their queues alone, and registers no
room. -/
structure SideStep (g : Goroutine) (s s' : CollabService) : Prop where
  roomAt : s'.roomAt = s.roomAt
  clientAt : s'.clientAt = s.clientAt
  nextUuid : s.nextUuid ≤ s'.nextUuid
  nextRoom : s'.nextRoom = s.nextRoom
  sent : s'.sent = s.sent
  missed : s'.missed = s.missed
  panicked : s'.panicked = s.panicked
  acting : ∀ g', g' ≠ g → s'.acting g' = s.acting g'
  registered : ∀ {sid r}, s'.getRoomByID sid = some r → s.getRoomByID sid = some r

theorem SideStep.refl (g : Goroutine) (s : CollabService) : SideStep g s s :=
  ⟨rfl, rfl, le_rfl, rfl, rfl, rfl, rfl, fun _ _ => rfl, id⟩

theorem SideStep.removeRoom (g : Goroutine) (s : CollabService) (sid : String) :
    SideStep g s (s.removeRoom sid) := by
  unfold CollabService.removeRoom
  split
  · exact .refl g s
  · split
    · refine { SideStep.refl g s with registered := ?_ }
      intro sid' r h
      by_cases hsid : sid' = sid
      · subst hsid
        simp [getRoomByID] at h
      · simpa [getRoomByID, AList.lookup_erase_ne hsid] using h
    · exact .refl g s

theorem removeRoom_acting (s : CollabService) (sid : String) :
    (s.removeRoom sid).acting = s.acting := by
  unfold removeRoom
  split
  · rfl
  · split <;> rfl

/-- Whether a step is one of a `deliver` call. -/
def delivering : ServiceOp → Bool
  | .beginDeliver .. | .put .. | .markSlow .. => true
  | _ => false

/-- How far a step brings the join that made client `c`, if it does. -/
def progresses (c : String) : ServiceOp → Option JoinProgress
  | .rlock _ (.announce c') => if c' = c then some .announced else none
  | .roomJoinedEvent _ _ _ c' _ _ => if c' = c then some .answered else none
  | _ => none

/-- What goroutine `g` is acting for after a step of it. -/
def actingAfter (s : CollabService) (g : Goroutine) : ServiceOp → Option (String × RoomRef)
  | .findRoomForClient c => (s.findRoomForClient c).map fun r => (c, r)
  | .handled => none
  | _ => s.acting g

/-- What a step of goroutine `g` can do. -/
inductive Effect (u : UuidSource) (g : Goroutine) (s : CollabService) :
    ServiceOp → CollabService → Prop
  | side {o : ServiceOp} {s' : CollabService} (h : SideStep g s s')
      (hprogress : ∀ c, progresses c o = none) (hacting : s'.acting g = actingAfter s g o) :
      Effect u g s o s'
  /-- A room's attributes change, or `g` locks or unlocks it for reading. -/
  | room {o : ServiceOp} (r : RoomRef) (f : CollabRoom → CollabRoom)
      (hsession : (f (s.roomAt r)).sessionId = (s.roomAt r).sessionId)
      (hclients : (f (s.roomAt r)).clients = (s.roomAt r).clients)
      (hreaders : ∀ g', g' ≠ g → g' ∈ (s.roomAt r).readers → g' ∈ (f (s.roomAt r)).readers)
      (hprogress : ∀ c, progresses c o = none) (hacting : s.acting g = actingAfter s g o) :
      Effect u g s o (s.modifyRoom r f)
  | create (sid : String) : Effect u g s (.getOrCreateRoom sid) (s.getOrCreateRoom sid).2
  | join (r : RoomRef) (ctx : Ctx) (join : JoinRoom) (sid : String)
      (peers : List (String × PeerInfo)) (hfree : (s.roomAt r).readers = ∅) :
      Effect u g s (.addClient r ctx join sid peers)
        (s.tick.addJoined r (newClient g ctx join sid (s.uuid u) peers))
  | announce (r : RoomRef) (c : String) :
      Effect u g s (.rlock r (.announce c)) (s.rlock g r (.announce c))
  | answer (id : String) (r : RoomRef) (sid c : String) (enc : Bool)
      (peers : List (String × PeerInfo)) :
      Effect u g s (.roomJoinedEvent id r sid c enc peers) (s.noteProgress c .answered)
  | leave (r : RoomRef) (c : String) (hfree : (s.roomAt r).readers = ∅) :
      Effect u g s (.removeClient r c) (s.removeLeft r c)
  | transfer (r : RoomRef) (successor : String) (hfree : (s.roomAt r).readers = ∅) :
      Effect u g s (.transferOwner r successor) (s.transferOwner r successor)
  | closeAll (r : RoomRef) (hfree : (s.roomAt r).readers = ∅) :
      Effect u g s (.closeAllClients r) (s.closeAllClients r)
  | deliver (c : String) (e : CollabEvent) :
      Effect u g s (.beginDeliver c e) (s.beginDeliver g c e).1
  | put {s' : CollabService} (c : String) (e : CollabEvent) (k : Nat)
      (h : s.put? g c e k = some s') : Effect u g s (.put c e k) s'
  | slow (c : String) (k : Nat) : Effect u g s (.markSlow c k) (s.markSlow c k)

theorem lock_eq_some {α : Type} {r : RoomRef} {a a' : CollabService × α}
    (h : s.lock r a = some a') : (s.roomAt r).readers = ∅ ∧ a' = a := by
  unfold lock at h
  split at h
  · rename_i hfree
    exact ⟨hfree, (Option.some.inj h).symm⟩
  · simp at h

/-- Every step has one of these effects. -/
theorem apply_effect {n : Nat} {a : o.Res} (h : o.apply u g n s = some (s', a)) :
    Effect u g s o s' := by
  cases o with
  | uuid =>
    obtain ⟨rfl, -⟩ := Prod.mk.inj (Option.some.inj h)
    exact .side { SideStep.refl g s with nextUuid := Nat.le_succ _ } (fun _ => rfl) rfl
  | indexHint hint sid =>
    obtain ⟨rfl, -⟩ := Prod.mk.inj (Option.some.inj h)
    exact .side { SideStep.refl g s with } (fun _ => rfl) rfl
  | getOrCreateRoom sid =>
    obtain ⟨rfl, -⟩ := Prod.mk.inj (Option.some.inj h)
    exact .create sid
  | ownedElsewhere r b =>
    obtain ⟨rfl, -⟩ := Prod.mk.inj (lock_eq_some h).2
    exact .side (.refl g _) (fun _ => rfl) rfl
  | setEncrypted r b =>
    obtain ⟨rfl, -⟩ := Prod.mk.inj (lock_eq_some h).2
    exact .room r _ rfl rfl (fun _ _ h => h) (fun _ => rfl) rfl
  | addClient r ctx join sid peers =>
    obtain ⟨hfree, heq⟩ := lock_eq_some h
    obtain ⟨rfl, -⟩ := Prod.mk.inj heq
    exact .join r ctx join sid peers hfree
  | claimRoom r c join =>
    obtain ⟨rfl, -⟩ := Prod.mk.inj (lock_eq_some h).2
    exact .room r _ rfl rfl (fun _ _ h => h) (fun _ => rfl) rfl
  | roomJoinedEvent id r sid c enc peers =>
    obtain ⟨rfl, -⟩ := Prod.mk.inj (Option.some.inj h)
    exact .answer id r sid c enc peers
  | findRoomForClient c =>
    obtain ⟨rfl, -⟩ := Prod.mk.inj (Option.some.inj h)
    exact .side { SideStep.refl g s with acting := fun g' hg => Function.update_of_ne hg _ _ }
      (fun _ => rfl) (Function.update_self ..)
  | removeClient r c =>
    obtain ⟨hfree, heq⟩ := lock_eq_some h
    obtain ⟨rfl, -⟩ := Prod.mk.inj heq
    exact .leave r c hfree
  | transferOwner r successor =>
    obtain ⟨hfree, heq⟩ := lock_eq_some h
    obtain ⟨rfl, -⟩ := Prod.mk.inj heq
    exact .transfer r successor hfree
  | closeAllClients r =>
    obtain ⟨hfree, heq⟩ := lock_eq_some h
    obtain ⟨rfl, -⟩ := Prod.mk.inj heq
    exact .closeAll r hfree
  | removeRoom r =>
    obtain ⟨rfl, -⟩ := Prod.mk.inj (Option.some.inj h)
    exact .side (.removeRoom g s _) (fun _ => rfl) (removeRoom_acting s _ ▸ rfl)
  | setTitle r title =>
    obtain ⟨rfl, -⟩ := Prod.mk.inj (lock_eq_some h).2
    exact .room r _ rfl rfl (fun _ _ h => h) (fun _ => rfl) rfl
  | countRelay =>
    obtain ⟨rfl, -⟩ := Prod.mk.inj (Option.some.inj h)
    exact .side { SideStep.refl g s with } (fun _ => rfl) rfl
  | rlock r range =>
    obtain ⟨rfl, -⟩ := Prod.mk.inj (Option.some.inj h)
    cases range with
    | announce c => exact .announce r c
    | _ =>
      exact .room r (fun room => { room with readers := insert g room.readers }) rfl rfl
        (fun _ _ h => Finset.mem_insert_of_mem h) (fun _ => rfl) rfl
  | runlock r =>
    obtain ⟨rfl, -⟩ := Prod.mk.inj (Option.some.inj h)
    exact .room r _ rfl rfl (fun _ hne h => Finset.mem_erase_of_ne_of_mem hne h) (fun _ => rfl) rfl
  | beginDeliver c e =>
    obtain ⟨rfl, -⟩ := Prod.mk.inj (Option.some.inj h)
    exact .deliver c e
  | put c e k =>
    obtain ⟨rfl, -⟩ := Prod.mk.inj (Option.some.inj h)
    cases hput : s.put? g c e k with
    | none => exact .side (.refl g s) (fun _ => rfl) rfl
    | some s₁ => exact .put c e k hput
  | markSlow c k =>
    obtain ⟨rfl, -⟩ := Prod.mk.inj (Option.some.inj h)
    exact .slow c k
  | handled =>
    obtain ⟨rfl, -⟩ := Prod.mk.inj (Option.some.inj h)
    exact .side { SideStep.refl g s with acting := fun g' hg => Function.update_of_ne hg _ _ }
      (fun _ => rfl) (Function.update_self ..)
  -- the rest only read
  | hint _ | getRoomByID _ | isFull _ | roomFullMessage _ | isEncrypted _ | getPeerInfo _
  | peerJoinedEvent _ _ | hasClient _ _ | leaverFlags _ _ | clientCount _ | findByBrowserId _ _ _
  | ownerChangedEvent _ _ _ =>
    obtain ⟨rfl, -⟩ := Prod.mk.inj (Option.some.inj h)
    exact .side (.refl g _) (fun _ => rfl) rfl

/-! ### What every step respects -/

/-- What a client keeps from its join on. -/
structure ClientGrow (cl cl' : CollabClient) : Prop where
  clientId : cl'.info.clientId = cl.info.clientId
  identity : cl'.info.identity = cl.info.identity
  creator : cl'.creator = cl.creator
  principal : cl'.principal = cl.principal
  snapshot : cl'.snapshot = cl.snapshot
  sessionId : cl'.sessionId = cl.sessionId
  slow : cl.slow = true → cl'.slow = true
  enqueued : cl.enqueued <+: cl'.enqueued

theorem ClientGrow.refl (cl : CollabClient) : ClientGrow cl cl :=
  ⟨rfl, rfl, rfl, rfl, rfl, rfl, id, List.prefix_rfl⟩

theorem ClientGrow.trans {cl cl' cl'' : CollabClient} (h : ClientGrow cl cl')
    (h' : ClientGrow cl' cl'') : ClientGrow cl cl'' where
  clientId := h'.clientId.trans h.clientId
  identity := h'.identity.trans h.identity
  creator := h'.creator.trans h.creator
  principal := h'.principal.trans h.principal
  snapshot := h'.snapshot.trans h.snapshot
  sessionId := h'.sessionId.trans h.sessionId
  slow := h'.slow ∘ h.slow
  enqueued := h.enqueued.trans h'.enqueued

structure Grow (u : UuidSource) (s s' : CollabService) : Prop where
  nextUuid : s.nextUuid ≤ s'.nextUuid
  nextRoom : s.nextRoom ≤ s'.nextRoom
  session : ∀ {r}, r < s.nextRoom → (s'.roomAt r).sessionId = (s.roomAt r).sessionId
  gone : ∀ {r c}, Issued u s c → c ∉ (s.roomAt r).clients → c ∉ (s'.roomAt r).clients
  client : ∀ {c}, Issued u s c → ClientGrow (s.clientAt c) (s'.clientAt c)
  sent : s.sent <+: s'.sent
  /-- A call that missed its client since then returned when at least as many had begun. -/
  missed : ∀ {m}, m ∈ s'.missed → m ∈ s.missed ∨ s.sent.length ≤ m.begun
  panicked : s.panicked = true → s'.panicked = true

theorem Grow.refl (u : UuidSource) (s : CollabService) : Grow u s s where
  nextUuid := le_rfl
  nextRoom := le_rfl
  session _ := rfl
  gone _ h := h
  client _ := .refl _
  sent := List.prefix_rfl
  missed h := Or.inl h
  panicked h := h

theorem Grow.trans (h : Grow u s s') (h' : Grow u s' s'') : Grow u s s'' where
  nextUuid := h.nextUuid.trans h'.nextUuid
  nextRoom := h.nextRoom.trans h'.nextRoom
  session hr := (h'.session (hr.trans_le h.nextRoom)).trans (h.session hr)
  gone hc hout := h'.gone (hc.mono h.nextUuid) (h.gone hc hout)
  client hc := (h.client hc).trans (h'.client (hc.mono h.nextUuid))
  sent := h.sent.trans h'.sent
  missed hm := by
    rcases h'.missed hm with hm | hm
    · exact h.missed hm
    · exact Or.inr (h.sent.length_le.trans hm)
  panicked := h'.panicked ∘ h.panicked

/-! ### What the others leave alone -/

/-- The entries of `l` that goroutine `g` put there. -/
def queuedBy (g : Goroutine) (l : List Queued) : List Queued := l.filter (·.sender = g)

/-- The `deliver` calls that goroutine `g` made. -/
def sentBy (g : Goroutine) (l : List Delivery) : List Delivery := l.filter (·.sender = g)

structure Rely (u : UuidSource) (g : Goroutine) (s s' : CollabService) : Prop
    extends Grow u s s' where
  /-- A room that `g` reads stays locked and keeps its clients. -/
  held : ∀ {r}, r < s.nextRoom → g ∈ (s.roomAt r).readers →
    g ∈ (s'.roomAt r).readers ∧ (s'.roomAt r).clients = (s.roomAt r).clients
  /-- Nobody else queues events as `g`; only an id not handed out yet is given a new
  queue. -/
  queued : ∀ c, queuedBy g (s'.clientAt c).enqueued = queuedBy g (s.clientAt c).enqueued ∨
    (¬ Issued u s c ∧ queuedBy g (s'.clientAt c).enqueued = [])
  own : sentBy g s'.sent = sentBy g s.sent
  acting : s'.acting g = s.acting g

theorem Rely.refl (u : UuidSource) (g : Goroutine) (s : CollabService) : Rely u g s s where
  toGrow := .refl u s
  held _ h := ⟨h, rfl⟩
  queued _ := Or.inl rfl
  own := rfl
  acting := rfl

theorem Rely.trans (h : Rely u g s s') (h' : Rely u g s' s'') : Rely u g s s'' where
  toGrow := h.toGrow.trans h'.toGrow
  held hr hg := by
    obtain ⟨hg₁, hclients⟩ := h.held hr hg
    obtain ⟨hg₂, hclients'⟩ := h'.held (hr.trans_le h.nextRoom) hg₁
    exact ⟨hg₂, hclients'.trans hclients⟩
  queued c := by
    rcases h'.queued c with hc' | ⟨hnew, hc'⟩
    · rw [hc']
      exact h.queued c
    · exact Or.inr ⟨fun hc => hnew (hc.mono h.nextUuid), hc'⟩
  own := h'.own.trans h.own
  acting := h'.acting.trans h.acting

/-! ### The updates steps are made of -/

theorem Rely.side (h : SideStep g s s') (hne : g' ≠ g) : Rely u g' s s' where
  nextUuid := h.nextUuid
  nextRoom := h.nextRoom.ge
  session _ := by rw [h.roomAt]
  gone _ hout := by rwa [h.roomAt]
  client _ := by rw [h.clientAt]; exact .refl _
  sent := by rw [h.sent]
  missed hm := Or.inl (h.missed ▸ hm)
  panicked hp := h.panicked.trans hp
  held _ hg := by rw [h.roomAt]; exact ⟨hg, rfl⟩
  queued _ := Or.inl (by rw [h.clientAt])
  own := by rw [h.sent]
  acting := h.acting g' hne

/-- An update of a room that keeps its session and adds nobody. -/
theorem Rely.modifyRoom {r : RoomRef} {f : CollabRoom → CollabRoom}
    (hsession : (f (s.roomAt r)).sessionId = (s.roomAt r).sessionId)
    (hclients : (f (s.roomAt r)).clients ⊆ (s.roomAt r).clients)
    (hheld : g ∈ (s.roomAt r).readers →
      g ∈ (f (s.roomAt r)).readers ∧ (f (s.roomAt r)).clients = (s.roomAt r).clients) :
    Rely u g s (s.modifyRoom r f) where
  toGrow :=
    { Grow.refl u s with
      session := by
        intro r' _
        by_cases hr : r' = r
        · subst hr
          simpa [CollabService.modifyRoom] using hsession
        · simp [CollabService.modifyRoom, hr]
      gone := by
        intro r' c _ h
        by_cases hr : r' = r
        · subst hr
          simpa [CollabService.modifyRoom] using fun hc => h (hclients hc)
        · simpa [CollabService.modifyRoom, hr] using h }
  held := by
    intro r' _ h
    by_cases hr : r' = r
    · subst hr
      simpa [CollabService.modifyRoom] using hheld h
    · simpa [CollabService.modifyRoom, hr] using h
  queued _ := Or.inl rfl
  own := rfl
  acting := rfl

/-- An update of a room whose lock is free. -/
theorem Rely.modifyLocked {r : RoomRef} {f : CollabRoom → CollabRoom}
    (hfree : (s.roomAt r).readers = ∅)
    (hsession : (f (s.roomAt r)).sessionId = (s.roomAt r).sessionId)
    (hclients : (f (s.roomAt r)).clients ⊆ (s.roomAt r).clients) :
    Rely u g s (s.modifyRoom r f) :=
  .modifyRoom hsession hclients fun h => by simp [hfree] at h

/-- An update of a client that `g` has no part in. -/
theorem Rely.modifyClient {c : String} {f : CollabClient → CollabClient}
    (hgrow : ClientGrow (s.clientAt c) (f (s.clientAt c)))
    (hqueued : queuedBy g (f (s.clientAt c)).enqueued = queuedBy g (s.clientAt c).enqueued) :
    Rely u g s (s.modifyClient c f) where
  toGrow :=
    { Grow.refl u s with
      client := by
        intro c' _
        by_cases hc : c' = c
        · subst hc
          simpa [CollabService.modifyClient] using hgrow
        · simpa [CollabService.modifyClient, hc] using ClientGrow.refl _ }
  held _ h := ⟨h, rfl⟩
  queued c' := by
    left
    by_cases hc : c' = c
    · subst hc
      simpa [CollabService.modifyClient] using hqueued
    · simp [CollabService.modifyClient, hc]
  own := rfl
  acting := rfl

theorem Rely.noteProgress (s : CollabService) (c : String) (progress : JoinProgress) :
    Rely u g s (s.noteProgress c progress) :=
  .modifyClient ⟨rfl, rfl, rfl, rfl, rfl, rfl, id, List.prefix_rfl⟩ rfl

theorem Rely.getOrCreateRoom (s : CollabService) (sid : String) :
    Rely u g s (s.getOrCreateRoom sid).2 := by
  unfold CollabService.getOrCreateRoom
  split
  · exact .refl u g s
  · refine { Rely.refl u g s with nextRoom := Nat.le_succ _, session := ?_, gone := ?_, held := ?_ }
    · intro r hr
      simp [countRoomCreated, hr.ne]
    · intro r c _ h
      by_cases hr : r = s.nextRoom
      · subst hr
        simp [countRoomCreated]
      · simpa [countRoomCreated, hr] using h
    · intro r hr h
      simpa [countRoomCreated, hr.ne] using h

/-- A new client has an id nobody has, in a room nobody reads. -/
theorem Rely.addJoined {r : RoomRef} {ctx : Ctx} {join : JoinRoom} {sid : String}
    {peers : List (String × PeerInfo)} (hfree : (s.roomAt r).readers = ∅) :
    Rely u g' s (s.tick.addJoined r (newClient g ctx join sid (s.uuid u) peers)) := by
  refine { Rely.refl u g' s with
    nextUuid := Nat.le_succ _
    session := ?_, gone := ?_, client := ?_, held := ?_, queued := ?_ }
  · intro r' _
    by_cases hr : r' = r
    · subst hr
      simp [CollabService.addJoined, addClient, CollabService.modifyRoom, CollabService.tick]
    · simp [CollabService.addJoined, addClient, CollabService.modifyRoom, CollabService.tick, hr]
  · intro r' c hc h
    by_cases hr : r' = r
    · subst hr
      simpa [CollabService.addJoined, addClient, CollabService.modifyRoom, CollabService.tick,
        newClient, List.mem_insert_iff] using ⟨hc.ne_uuid, h⟩
    · simpa [CollabService.addJoined, addClient, CollabService.modifyRoom, CollabService.tick, hr]
        using h
  · intro c hc
    simpa [CollabService.addJoined, addClient, CollabService.modifyRoom, CollabService.tick,
      newClient, hc.ne_uuid] using ClientGrow.refl _
  · intro r' _ h
    by_cases hr : r' = r
    · subst hr
      simp [hfree] at h
    · simpa [CollabService.addJoined, addClient, CollabService.modifyRoom, CollabService.tick, hr]
        using h
  · intro c
    by_cases hc : c = s.uuid u
    · subst hc
      exact Or.inr ⟨uuid_not_issued, by
        simp [CollabService.addJoined, addClient, CollabService.modifyRoom, newClient, queuedBy]⟩
    · exact Or.inl (by
        simp [CollabService.addJoined, addClient, CollabService.modifyRoom, CollabService.tick,
          newClient, hc])

theorem Rely.removeLeft {r : RoomRef} {c : String} (hfree : (s.roomAt r).readers = ∅) :
    Rely u g s (s.removeLeft r c) :=
  { Rely.modifyLocked (u := u) (g := g)
    (f := fun room => { room with clients := room.clients.erase c })
      hfree rfl List.erase_subset with }

theorem Rely.transferOwner {r : RoomRef} {successor : String}
    (hfree : (s.roomAt r).readers = ∅) : Rely u g s (s.transferOwner r successor) := by
  refine Rely.trans (Rely.modifyClient (c := successor)
    (f := fun cl => { cl with info := { cl.info with isOwner := true } }) ?_ rfl)
    (Rely.modifyLocked hfree rfl (List.Subset.refl _))
  exact ⟨rfl, rfl, rfl, rfl, rfl, rfl, id, List.prefix_rfl⟩

theorem Rely.closeClients (s : CollabService) (cs : List String) :
    Rely u g s (cs.foldl closeClient s) := by
  refine closeClients_rule (I := Rely u g s) ?_ ?_ (.refl u g s)
  · exact fun {s₁} h => h.trans { Rely.refl u g s₁ with panicked := fun _ => rfl }
  · exact fun c h =>
      h.trans (.modifyClient ⟨rfl, rfl, rfl, rfl, rfl, rfl, id, List.prefix_rfl⟩ rfl)

theorem closeClients_roomAt (s : CollabService) (cs : List String) :
    (cs.foldl closeClient s).roomAt = s.roomAt :=
  closeClients_rule (I := fun s' => s'.roomAt = s.roomAt) id (fun _ h => h) rfl

theorem Rely.closeAllClients {r : RoomRef} (hfree : (s.roomAt r).readers = ∅) :
    Rely u g s (s.closeAllClients r) := by
  refine (Rely.closeClients s (s.roomAt r).clients).trans (Rely.modifyLocked ?_ rfl ?_)
  · rw [closeClients_roomAt]
    exact hfree
  · exact List.nil_subset _

theorem Rely.rlock (s : CollabService) (r : RoomRef) (range : Range) :
    Rely u g' s (s.rlock g r range) := by
  have hread : Rely u g' s
      (s.modifyRoom r fun room => { room with readers := insert g room.readers }) :=
    .modifyRoom rfl (List.Subset.refl _) fun h => ⟨Finset.mem_insert_of_mem h, rfl⟩
  cases range with
  | announce c => exact hread.trans (Rely.noteProgress _ c .announced)
  | _ => exact hread

theorem Rely.beginDeliver (s : CollabService) (c : String) (e : CollabEvent) (h : g' ≠ g) :
    Rely u g' s (s.beginDeliver g c e).1 := by
  have hown : sentBy g' (s.sent ++ [⟨g, c, e⟩]) = sentBy g' s.sent := by
    simp [sentBy, Ne.symm h]
  unfold CollabService.beginDeliver
  dsimp only
  split
  · refine { Rely.refl u g' s with sent := List.prefix_append _ _, missed := ?_, own := hown }
    intro m hm
    rcases List.mem_append.mp hm with hm | hm
    · exact Or.inl hm
    · obtain rfl := List.mem_singleton.mp hm
      exact Or.inr (by simp)
  · exact { Rely.refl u g' s with sent := List.prefix_append _ _, own := hown }

theorem Rely.put? {c : String} {e : CollabEvent} {k : Nat} (hput : s.put? g c e k = some s')
    (h : g' ≠ g) : Rely u g' s s' := by
  rcases put?_eq_some hput with ⟨-, rfl⟩ | ⟨ch, -, rfl⟩
  · exact { Rely.refl u g' s with panicked := fun _ => rfl }
  · refine .modifyClient ⟨rfl, rfl, rfl, rfl, rfl, rfl, id, List.prefix_append _ _⟩ ?_
    simp [queuedBy, Ne.symm h]

theorem Rely.markSlow (s : CollabService) (c : String) (k : Nat) :
    Rely u g s (s.markSlow c k) := by
  refine { Rely.modifyClient (u := u) (g := g) (s := s) (c := c)
    (f := fun cl => { cl with slow := true })
    ⟨rfl, rfl, rfl, rfl, rfl, rfl, fun _ => rfl, List.prefix_rfl⟩ rfl with missed := ?_ }
  intro m hm
  rcases List.mem_append.mp hm with hm | hm
  · exact Or.inl hm
  · obtain rfl := List.mem_singleton.mp hm
    exact Or.inr le_rfl

theorem Rely.take? {c : String} {q : Queued} (h : s.take? c = some (q, s')) : Rely u g s s' := by
  obtain ⟨ch, -, rfl⟩ := take?_eq_some h
  exact .modifyClient ⟨rfl, rfl, rfl, rfl, rfl, rfl, id, List.prefix_rfl⟩ rfl

/-! ### Every step -/

/-- An effect of goroutine `g` is one that every other goroutine can live with. -/
theorem Effect.rely (h : Effect u g s o s') (hne : g' ≠ g) : Rely u g' s s' := by
  cases h with
  | side h _ _ => exact .side h hne
  | room r f hsession hclients hreaders _ _ =>
    exact .modifyRoom hsession (fun c hc => hclients ▸ hc) fun hg => ⟨hreaders g' hne hg, hclients⟩
  | create sid => exact .getOrCreateRoom s sid
  | join r ctx join sid peers hfree => exact .addJoined hfree
  | announce r c => exact .rlock s r _
  | answer _ _ _ c _ _ => exact .noteProgress s c _
  | leave r c hfree => exact .removeLeft hfree
  | transfer r successor hfree => exact .transferOwner hfree
  | closeAll r hfree => exact .closeAllClients hfree
  | deliver c e => exact .beginDeliver s c e hne
  | put c e k h => exact .put? h hne
  | slow c k => exact .markSlow s c k

/-- An effect respects what every step does. -/
theorem Effect.grow (h : Effect u g s o s') : Grow u s s' := by
  -- some goroutine other than the one that made the step
  obtain ⟨g', hne⟩ : ∃ g' : Goroutine, g' ≠ g := by
    by_cases hg : g = .direct 0
    · exact ⟨.direct 1, by simp [hg]⟩
    · exact ⟨.direct 0, Ne.symm hg⟩
  exact (h.rely hne).toGrow

/-! ### What a step does to the clients -/

theorem clientGrow_modifyClient {c : String} {f : CollabClient → CollabClient}
    (hf : ClientGrow (s.clientAt c) (f (s.clientAt c))) (c' : String) :
    ClientGrow (s.clientAt c') ((s.modifyClient c f).clientAt c') := by
  by_cases hc : c' = c
  · subst hc
    rwa [modifyClient_clientAt_self]
  · rw [modifyClient_clientAt_of_ne s f hc]
    exact .refl _

theorem progress_modifyClient {c : String} {f : CollabClient → CollabClient}
    (hf : (f (s.clientAt c)).progress = (s.clientAt c).progress) (c' : String) :
    ((s.modifyClient c f).clientAt c').progress = (s.clientAt c').progress := by
  by_cases hc : c' = c
  · subst hc
    rwa [modifyClient_clientAt_self]
  · rw [modifyClient_clientAt_of_ne s f hc]

theorem clientGrow_closeClients (s : CollabService) (cs : List String) (c : String) :
    ClientGrow (s.clientAt c) ((cs.foldl closeClient s).clientAt c) ∧
      ((cs.foldl closeClient s).clientAt c).progress = (s.clientAt c).progress := by
  refine closeClients_rule (I := fun s' => ClientGrow (s.clientAt c) (s'.clientAt c) ∧
    (s'.clientAt c).progress = (s.clientAt c).progress) id ?_ ⟨.refl _, rfl⟩
  rintro s₁ c' ⟨hgrow, hprogress⟩
  have hclose : ClientGrow (s₁.clientAt c) ((s₁.modifyClient c' fun cl =>
      { cl with sendCh := cl.sendCh.close }).clientAt c) :=
    clientGrow_modifyClient ⟨rfl, rfl, rfl, rfl, rfl, rfl, id, List.prefix_rfl⟩ c
  exact ⟨hgrow.trans hclose, (progress_modifyClient rfl c).trans hprogress⟩

theorem noteProgress_client (s : CollabService) (c c' : String) (progress : JoinProgress) :
    ClientGrow (s.clientAt c') ((s.noteProgress c progress).clientAt c') ∧
      ((s.noteProgress c progress).clientAt c').progress =
        if c = c' then progress else (s.clientAt c').progress := by
  refine ⟨clientGrow_modifyClient ⟨rfl, rfl, rfl, rfl, rfl, rfl, id, List.prefix_rfl⟩ c', ?_⟩
  unfold noteProgress
  by_cases hc : c' = c
  · subst hc
    simp
  · simp [hc, Ne.symm hc]

/-- A step that makes a client. -/
def Makes (u : UuidSource) (g : Goroutine) (o : ServiceOp) (s s' : CollabService) : Prop :=
  ∃ r ctx join sid peers, o = .addClient r ctx join sid peers ∧ (s.roomAt r).readers = ∅ ∧
    s' = s.tick.addJoined r (newClient g ctx join sid (s.uuid u) peers)

theorem Makes.mem_clients (h : Makes u g o s s') : ∃ r, s.uuid u ∈ (s'.roomAt r).clients := by
  obtain ⟨r, ctx, join, sid, peers, -, -, rfl⟩ := h
  exact ⟨r, by simp [CollabService.addJoined, addClient, newClient, modifyRoom]⟩

/-- A step makes a client, or lets it grow. -/
theorem Effect.client (h : Effect u g s o s') (c : String) :
    (c = s.uuid u ∧ Makes u g o s s') ∨
    (ClientGrow (s.clientAt c) (s'.clientAt c) ∧
      (s'.clientAt c).progress = (progresses c o).getD (s.clientAt c).progress) := by
  cases h with
  | side h hprogress _ =>
    rw [h.clientAt, hprogress]
    exact Or.inr ⟨.refl _, rfl⟩
  | room r f _ _ _ hprogress _ =>
    rw [hprogress]
    exact Or.inr ⟨.refl _, rfl⟩
  | create sid =>
    right
    unfold getOrCreateRoom
    split <;> exact ⟨.refl _, rfl⟩
  | join r ctx join sid peers hfree =>
    by_cases hc : c = s.uuid u
    · exact Or.inl ⟨hc, r, ctx, join, sid, peers, rfl, hfree, rfl⟩
    · right
      have hclient : ((s.tick.addJoined r (newClient g ctx join sid (s.uuid u) peers)).clientAt c) =
          s.clientAt c := by
        simp [CollabService.addJoined, addClient, newClient, CollabService.tick, hc]
      rw [hclient]
      exact ⟨.refl _, rfl⟩
  | announce r c' =>
    obtain ⟨hgrow, hprogress⟩ := noteProgress_client
      (s.modifyRoom r fun room => { room with readers := insert g room.readers }) c' c .announced
    refine Or.inr ⟨hgrow, hprogress.trans ?_⟩
    by_cases hc : c' = c <;> simp [progresses, hc]
  | answer _ _ _ c' _ _ =>
    obtain ⟨hgrow, hprogress⟩ := noteProgress_client s c' c .answered
    refine Or.inr ⟨hgrow, hprogress.trans ?_⟩
    by_cases hc : c' = c <;> simp [progresses, hc]
  | leave r c' hfree => exact Or.inr ⟨.refl _, rfl⟩
  | transfer r successor hfree =>
    exact Or.inr ⟨clientGrow_modifyClient (c := successor)
      (f := fun cl => { cl with info := { cl.info with isOwner := true } })
      ⟨rfl, rfl, rfl, rfl, rfl, rfl, id, List.prefix_rfl⟩ c,
      progress_modifyClient (c := successor)
        (f := fun cl => { cl with info := { cl.info with isOwner := true } }) rfl c⟩
  | closeAll r hfree => exact Or.inr (clientGrow_closeClients s _ c)
  | deliver c' e =>
    right
    unfold beginDeliver
    dsimp only
    split <;> exact ⟨.refl _, rfl⟩
  | put c' e k h =>
    right
    rcases put?_eq_some h with ⟨-, rfl⟩ | ⟨ch, -, rfl⟩
    · exact ⟨.refl _, rfl⟩
    · exact ⟨clientGrow_modifyClient ⟨rfl, rfl, rfl, rfl, rfl, rfl, id, List.prefix_append _ _⟩ c,
        progress_modifyClient rfl c⟩
  | slow c' k =>
    exact Or.inr ⟨clientGrow_modifyClient (f := fun cl => { cl with slow := true })
      ⟨rfl, rfl, rfl, rfl, rfl, rfl, fun _ => rfl, List.prefix_rfl⟩ c,
      progress_modifyClient (c := c') (f := fun cl => { cl with slow := true }) rfl c⟩

theorem taken_modifyClient {c : String} {f : CollabClient → CollabClient}
    (hf : (f (s.clientAt c)).taken = (s.clientAt c).taken) (c' : String) :
    ((s.modifyClient c f).clientAt c').taken = (s.clientAt c').taken := by
  by_cases hc : c' = c
  · subst hc
    rwa [modifyClient_clientAt_self]
  · rw [modifyClient_clientAt_of_ne s f hc]

theorem taken_closeClients (s : CollabService) (cs : List String) (c : String) :
    ((cs.foldl closeClient s).clientAt c).taken = (s.clientAt c).taken :=
  closeClients_rule (I := fun s' => (s'.clientAt c).taken = (s.clientAt c).taken) id
    (fun _ h => (taken_modifyClient rfl c).trans h) rfl

/-- No step takes an event out of a queue; a client that is made has a new one. -/
theorem Effect.taken (h : Effect u g s o s') (c : String) :
    (s'.clientAt c).taken = (s.clientAt c).taken ∨
      (c = s.uuid u ∧ (s'.clientAt c).taken = []) := by
  cases h with
  | side h _ _ =>
    rw [h.clientAt]
    exact Or.inl rfl
  | room _ _ _ _ _ _ _ => exact Or.inl rfl
  | create sid =>
    left
    unfold getOrCreateRoom
    split <;> rfl
  | join r ctx join sid peers hfree =>
    by_cases hc : c = s.uuid u
    · subst hc
      exact Or.inr ⟨rfl, by simp [CollabService.addJoined, addClient, newClient]⟩
    · exact Or.inl (by simp [CollabService.addJoined, addClient, newClient, CollabService.tick, hc])
  | announce r c' =>
    exact Or.inl (taken_modifyClient (c := c') (f := fun cl => { cl with progress := .announced })
      rfl c)
  | answer _ _ _ c' _ _ => exact Or.inl (taken_modifyClient rfl c)
  | leave _ _ _ => exact Or.inl rfl
  | transfer r successor _ =>
    exact Or.inl (taken_modifyClient (c := successor)
      (f := fun cl => { cl with info := { cl.info with isOwner := true } }) rfl c)
  | closeAll r _ => exact Or.inl (taken_closeClients s _ c)
  | deliver c' e =>
    left
    unfold beginDeliver
    dsimp only
    split <;> rfl
  | put c' e k h =>
    left
    rcases put?_eq_some h with ⟨-, rfl⟩ | ⟨ch, -, rfl⟩
    · rfl
    · exact taken_modifyClient rfl c
  | slow c' k =>
    exact Or.inl (taken_modifyClient (c := c') (f := fun cl => { cl with slow := true }) rfl c)

theorem closeClients_acting (s : CollabService) (cs : List String) :
    (cs.foldl closeClient s).acting = s.acting :=
  closeClients_rule (I := fun s' => s'.acting = s.acting) id (fun _ h => h) rfl

theorem Effect.acting (h : Effect u g s o s') : s'.acting g = actingAfter s g o := by
  cases h with
  | side _ _ hacting => exact hacting
  | room _ _ _ _ _ _ hacting => exact hacting
  | create sid =>
    unfold getOrCreateRoom
    split <;> rfl
  | closeAll r hfree => exact congrFun (closeClients_acting s _) g
  | deliver c e =>
    unfold beginDeliver
    dsimp only
    split <;> rfl
  | put c e k h =>
    rcases put?_eq_some h with ⟨-, rfl⟩ | ⟨ch, -, rfl⟩
    · rfl
    · rfl
  | join _ _ _ _ _ _ | announce _ _ | answer _ _ _ _ _ _ | leave _ _ _ | transfer _ _ _
  | slow _ _ => rfl

/-! ### The base invariant -/

/-- A queue holds what was put in and not taken out. -/
def QueueOK (cl : CollabClient) : Prop := cl.enqueued = cl.taken ++ cl.sendCh.buf

/-- Rooms hold clients under their own ids and are registered under their own
sessions, and queues are in order. -/
structure Base (u : UuidSource) (s : CollabService) : Prop where
  issued : ∀ {r c}, c ∈ (s.roomAt r).clients → Issued u s c
  named : ∀ {r c}, c ∈ (s.roomAt r).clients → (s.clientAt c).info.clientId = c
  registered : ∀ {sid r}, s.getRoomByID sid = some r →
    r < s.nextRoom ∧ (s.roomAt r).sessionId = sid
  queue : ∀ c, QueueOK (s.clientAt c)

theorem Base.new (maxPeers : Int) : Base u (newCollabService maxPeers) where
  issued h := by simp [newCollabService] at h
  named h := by simp [newCollabService] at h
  registered h := by simp [getRoomByID, newCollabService] at h
  queue _ := rfl

theorem mem_modifyRoom {r r' : RoomRef} {c : String} {f : CollabRoom → CollabRoom}
    (hsub : (f (s.roomAt r)).clients ⊆ (s.roomAt r).clients)
    (hc : c ∈ ((s.modifyRoom r f).roomAt r').clients) : c ∈ (s.roomAt r').clients := by
  by_cases hr : r' = r
  · subst hr
    rw [modifyRoom_roomAt_self] at hc
    exact hsub hc
  · rwa [modifyRoom_roomAt_of_ne s f hr] at hc

/-- Whoever is in a room after a step was there before, or has just joined. -/
theorem Effect.mem_clients (h : Effect u g s o s') {r : RoomRef} {c : String}
    (hc : c ∈ (s'.roomAt r).clients) : c ∈ (s.roomAt r).clients ∨
      (c = s.uuid u ∧ (s.roomAt r).readers = ∅ ∧ ∃ ctx join sid peers,
        o = .addClient r ctx join sid peers ∧
        s' = s.tick.addJoined r (newClient g ctx join sid (s.uuid u) peers)) := by
  cases h with
  | side h => exact Or.inl (h.roomAt ▸ hc)
  | room r' f hsession hclients hreaders =>
    exact Or.inl (mem_modifyRoom (fun c hc => hclients ▸ hc) hc)
  | create sid =>
    left
    unfold getOrCreateRoom at hc
    split at hc
    · exact hc
    -- a room that is new has nobody in it
    · by_cases hr : r = s.nextRoom
      · subst hr
        simp [countRoomCreated] at hc
      · simpa [countRoomCreated, hr] using hc
  | join r' ctx join sid peers hfree =>
    by_cases hr : r = r'
    · subst hr
      simp only [addJoined, addClient, modifyRoom, tick, newClient, Function.update_self,
        List.mem_insert_iff] at hc
      rcases hc with hc | hc
      · exact Or.inr ⟨hc, hfree, ctx, join, sid, peers, rfl, rfl⟩
      · exact Or.inl hc
    · left
      simpa [addJoined, addClient, modifyRoom, tick, hr] using hc
  | announce r' c' =>
    exact Or.inl (mem_modifyRoom (f := fun room => { room with readers := insert g room.readers })
      (List.Subset.refl _) hc)
  | answer _ _ _ c' _ _ => exact Or.inl hc
  | leave r' c' hfree =>
    exact Or.inl (mem_modifyRoom (f := fun room => { room with clients := room.clients.erase c' })
      List.erase_subset hc)
  | transfer r' successor hfree =>
    exact Or.inl (mem_modifyRoom (s := s.modifyClient successor _) (List.Subset.refl _) hc)
  | closeAll r' hfree =>
    have hc := mem_modifyRoom (List.nil_subset _) hc
    rw [closeClients_roomAt] at hc
    exact Or.inl hc
  | deliver c' e =>
    left
    unfold beginDeliver at hc
    dsimp only at hc
    split at hc <;> exact hc
  | put c' e k h =>
    left
    rcases put?_eq_some h with ⟨-, rfl⟩ | ⟨ch, -, rfl⟩
    · exact hc
    · exact hc
  | slow c' k => exact Or.inl hc

/-- What the queues keep, they keep under every update of a client that does. -/
theorem queue_modifyClient {c c' : String} {f : CollabClient → CollabClient}
    (hs : ∀ c, QueueOK (s.clientAt c)) (hf : QueueOK (f (s.clientAt c))) :
    QueueOK ((s.modifyClient c f).clientAt c') := by
  by_cases hc : c' = c
  · subst hc
    rwa [modifyClient_clientAt_self]
  · rw [modifyClient_clientAt_of_ne s f hc]
    exact hs c'

theorem queue_closeClients (cs : List String) (hs : ∀ c, QueueOK (s.clientAt c)) (c : String) :
    QueueOK ((cs.foldl closeClient s).clientAt c) :=
  closeClients_rule (I := fun s' => ∀ c, QueueOK (s'.clientAt c)) id
    (fun c' h _ => queue_modifyClient h (h c')) hs c

theorem Effect.queue (h : Effect u g s o s') (hs : ∀ c, QueueOK (s.clientAt c)) (c : String) :
    QueueOK (s'.clientAt c) := by
  cases h with
  | side h => rw [h.clientAt]; exact hs c
  | room r f _ _ _ => exact hs c
  | create sid =>
    unfold getOrCreateRoom
    split
    · exact hs c
    · exact hs c
  | join r ctx join sid peers hfree =>
    by_cases hc : c = s.uuid u
    · subst hc
      simp [addJoined, addClient, newClient, QueueOK]
    · simpa [addJoined, addClient, newClient, tick, hc] using hs c
  | announce r c' =>
    exact queue_modifyClient (f := fun cl => { cl with progress := .announced }) hs (hs c')
  | answer _ _ _ c' _ _ => exact queue_modifyClient hs (hs c')
  | leave r c' hfree => exact hs c
  | transfer r successor hfree =>
    exact queue_modifyClient (f := fun cl => { cl with info := { cl.info with isOwner := true } })
      hs (hs successor)
  | closeAll r hfree => exact queue_closeClients _ hs c
  | deliver c' e =>
    unfold beginDeliver
    dsimp only
    split <;> exact hs c
  | put c' e k h =>
    rcases put?_eq_some h with ⟨-, rfl⟩ | ⟨ch, hpush, rfl⟩
    · exact hs c
    · refine queue_modifyClient hs ?_
      show _ = _ ++ ch.buf
      rw [(Go.Chan.push?_eq_some hpush).1, hs c', List.append_assoc]
  | slow c' k => exact queue_modifyClient (f := fun cl => { cl with slow := true }) hs (hs c')

theorem closeClients_rooms (s : CollabService) (cs : List String) :
    (cs.foldl closeClient s).rooms = s.rooms :=
  closeClients_rule (I := fun s' => s'.rooms = s.rooms) id (fun _ h => h) rfl

/-- Only the creation of a room registers one. -/
theorem Effect.getRoomByID (h : Effect u g s o s') {sid : String} {r : RoomRef}
    (hr : s'.getRoomByID sid = some r) : s.getRoomByID sid = some r ∨
      (r = s.nextRoom ∧ s'.nextRoom = s.nextRoom + 1 ∧ s'.roomAt r = { sessionId := sid }) := by
  cases h with
  | side h => exact Or.inl (h.registered hr)
  | create sid' =>
    rcases getOrCreateRoom_cases s sid' with ⟨r', -, heq⟩ | ⟨-, -, hlook, hroom, -, hnext, -⟩
    · rw [heq] at hr
      exact Or.inl hr
    · rw [hlook] at hr
      split at hr
      · rename_i hsid
        obtain rfl := Option.some.inj hr
        rw [hroom, hnext, Function.update_self, hsid]
        exact Or.inr ⟨rfl, rfl, rfl⟩
      · exact Or.inl hr
  | closeAll r' hfree =>
    refine Or.inl (Eq.trans ?_ hr)
    exact congrArg (fun rooms : AList _ => rooms.lookup sid) (closeClients_rooms s _).symm
  | deliver c e =>
    unfold beginDeliver at hr
    dsimp only at hr
    split at hr <;> exact Or.inl hr
  | put c e k h =>
    rcases put?_eq_some h with ⟨-, rfl⟩ | ⟨ch, -, rfl⟩
    · exact Or.inl hr
    · exact Or.inl hr
  | room _ _ _ _ _ | join _ _ _ _ _ _ | announce _ _ | answer _ | leave _ _ _ | transfer _ _ _
  | slow _ _ => exact Or.inl hr

/-- Every step keeps the base invariant. -/
theorem Base.effect (hs : Base u s) (h : Effect u g s o s') : Base u s' where
  issued := by
    intro r c hc
    rcases h.mem_clients hc with hc | ⟨rfl, -, ctx, join, sid, peers, -, rfl⟩
    · exact (hs.issued hc).mono h.grow.nextUuid
    · exact ⟨s.nextUuid, Nat.lt_succ_self _, rfl⟩
  named := by
    intro r c hc
    rcases h.mem_clients hc with hc | ⟨rfl, -, ctx, join, sid, peers, -, rfl⟩
    · exact (h.grow.client (hs.issued hc)).clientId.trans (hs.named hc)
    · simp [addJoined, addClient, newClient]
  registered := by
    intro sid r hr
    rcases h.getRoomByID hr with hold | ⟨rfl, hnext, hroom⟩
    · obtain ⟨hlt, hsid⟩ := hs.registered hold
      exact ⟨hlt.trans_le h.grow.nextRoom, (h.grow.session hlt).trans hsid⟩
    · rw [hnext, hroom]
      exact ⟨Nat.lt_succ_self _, rfl⟩
  queue := h.queue hs.queue

theorem take?_enqueued {c c' : String} {q : Queued} (h : s.take? c = some (q, s')) :
    (s'.clientAt c').enqueued = (s.clientAt c').enqueued := by
  obtain ⟨ch, -, rfl⟩ := take?_eq_some h
  by_cases hc : c' = c
  · subst hc
    simp
  · simp [hc]

theorem take?_taken {c : String} {q : Queued} (h : s.take? c = some (q, s')) :
    (s'.clientAt c).taken = (s.clientAt c).taken ++ [q] ∧
      ∀ c', c' ≠ c → (s'.clientAt c').taken = (s.clientAt c').taken := by
  obtain ⟨ch, -, rfl⟩ := take?_eq_some h
  exact ⟨by simp, fun c' hc => by simp [hc]⟩

theorem take?_creator {c : String} {q : Queued} (h : s.take? c = some (q, s')) (c' : String) :
    (s'.clientAt c').creator = (s.clientAt c').creator ∧
      (s'.clientAt c').slow = (s.clientAt c').slow := by
  obtain ⟨ch, -, rfl⟩ := take?_eq_some h
  by_cases hc : c' = c
  · subst hc
    simp
  · simp [hc]

theorem take?_sent {c : String} {q : Queued} (h : s.take? c = some (q, s')) : s'.sent = s.sent := by
  obtain ⟨ch, -, rfl⟩ := take?_eq_some h
  rfl

theorem take?_missed {c : String} {q : Queued} (h : s.take? c = some (q, s')) :
    s'.missed = s.missed := by
  obtain ⟨ch, -, rfl⟩ := take?_eq_some h
  rfl

theorem Base.take? {c : String} {q : Queued} (hs : Base u s) (h : s.take? c = some (q, s')) :
    Base u s' := by
  obtain ⟨ch, hpop, rfl⟩ := take?_eq_some h
  have hgrow : Grow u s _ := (Rely.take? (g := .direct 0) h).toGrow
  refine ⟨hs.issued, fun {r c'} hc => ?_, hs.registered, fun c' => queue_modifyClient hs.queue ?_⟩
  · exact (hgrow.client (hs.issued hc)).clientId.trans (hs.named hc)
  · show _ = _ ++ ch.buf
    have hqueue := hs.queue c
    rw [QueueOK, (Go.Chan.pop?_eq_some hpop).1] at hqueue
    rw [hqueue]
    simp

end CollabService

end MassRelay

import MassRelay.Services.Membership

/-!
# MassRelay.Services.Isolation

What a client sees of the others, however their steps interleave.

Everyone in a room has joined the session of the room, which its token may join, and keeps its
session for good. An event is delivered to clients of the room that its sender is, or was, in; and
the sender itself is passed over, by the range of the broadcast or because it has left, unless it is
a receiver that its own message lists. So what is queued for a client comes from a client of the
same session, not from itself, and is addressed to itself alone or to nobody in particular
(`Fits`). What an embedding server delivers need not come from anybody.
-/

namespace MassRelay

namespace CollabService

open Threads

variable {u : UuidSource} {s s' : CollabService} {g : Goroutine} {r : RoomRef} {x y : String}

/-- Client `x` has joined the session of room `r`. -/
structure Belongs (u : UuidSource) (x : String) (r : RoomRef) (s : CollabService) : Prop where
  issued : Issued u s x
  room : r < s.nextRoom
  session : (s.clientAt x).sessionId = (s.roomAt r).sessionId

/-- Room `r` has session `sid`, which a principal may join. -/
structure Hosts (ctx : Ctx) (r : RoomRef) (sid : String) (s : CollabService) : Prop where
  room : r < s.nextRoom
  session : (s.roomAt r).sessionId = sid
  allowed : allowsRoom ctx sid = true

/-- An application message comes from an embedding server. -/
def FromServer (g : Goroutine) (e : CollabEvent) : Prop :=
  (∃ k, g = .direct k) ∧ ∃ msg, e.event = .appMessage msg

/-- Two clients have joined one session. -/
structure Together (u : UuidSource) (x y : String) (s : CollabService) : Prop where
  left : Issued u s x
  right : Issued u s y
  session : (s.clientAt x).sessionId = (s.clientAt y).sessionId

/-- An event suits the client it is queued for. -/
structure Suits (e : CollabEvent) (y : String) : Prop where
  own : e.fromClientId = y → ∃ msg, e.event = .appMessage msg ∧ msg.toClientIds = [y]
  addressed : ∀ {msg}, e.event = .appMessage msg → msg.toClientIds = [] ∨ msg.toClientIds = [y]

/-- So does it as an event that goroutine `g` delivers. -/
structure Fits (u : UuidSource) (g : Goroutine) (e : CollabEvent) (y : String)
    (s : CollabService) : Prop extends Suits e y where
  together : Together u e.fromClientId y s ∨ FromServer g e

structure Isolated (u : UuidSource) (s : CollabService) : Prop extends Housed u s where
  joined : ∀ {r c}, c ∈ (s.roomAt r).clients → Belongs u c r s
  queued : ∀ {y q}, q ∈ (s.clientAt y).enqueued → Fits u q.sender q.event y s
  allowed : ∀ c, allowsRoom (s.clientAt c).principal (s.clientAt c).sessionId = true

/-- How goroutines keep the sessions apart. -/
def isolation (u : UuidSource) : Protocol CollabService Goroutine ServiceOp Unit where
  inv := Isolated u
  rely := Rely u
  idle _ _ := True
  req g o s :=
    match o with
    | .addClient r ctx _ sid _ => Hosts ctx r sid s
    | .put c e _ => Fits u g e c s
    | _ => True
  ok _ _ _ _ := True
  okLaunch _ _ := True

theorem Isolated.new (maxPeers : Int) : Isolated u (newCollabService maxPeers) where
  toHoused := .new maxPeers
  joined h := by simp [newCollabService] at h
  queued h := absurd h List.not_mem_nil
  allowed _ := rfl

/-! ### What others leave as it is -/

theorem Belongs.grow (hgrow : Grow u s s') (h : Belongs u x r s) : Belongs u x r s' where
  issued := h.issued.mono hgrow.nextUuid
  room := h.room.trans_le hgrow.nextRoom
  session := by rw [(hgrow.client h.issued).sessionId, hgrow.session h.room, h.session]

theorem Together.grow (hgrow : Grow u s s') (h : Together u x y s) : Together u x y s' where
  left := h.left.mono hgrow.nextUuid
  right := h.right.mono hgrow.nextUuid
  session := by rw [(hgrow.client h.left).sessionId, (hgrow.client h.right).sessionId, h.session]

theorem Fits.grow {e : CollabEvent} (hgrow : Grow u s s') (h : Fits u g e y s) :
    Fits u g e y s' :=
  ⟨h.toSuits, h.together.imp_left (.grow hgrow)⟩

theorem Hosts.grow {ctx : Ctx} {sid : String} (hgrow : Grow u s s') (h : Hosts ctx r sid s) :
    Hosts ctx r sid s' :=
  ⟨h.room.trans_le hgrow.nextRoom, (hgrow.session h.room).trans h.session, h.allowed⟩

/-- The members of a room have joined one session. -/
theorem Belongs.together (h : Belongs u x r s) (h' : Belongs u y r s) : Together u x y s :=
  ⟨h.issued, h'.issued, h.session.trans h'.session.symm⟩

/-! ### Every step keeps the terms -/

section Step

variable {n : Nat} {o : ServiceOp} {a : o.Res}

theorem Isolated.step (hs : Isolated u s) (hreq : (isolation u).req g o s)
    (h : o.apply u g n s = some (s', a)) : Isolated u s' where
  toHoused := hs.toHoused.apply h
  joined := by
    intro r c hc
    have hgrow := (apply_effect h).grow
    rcases (apply_effect h).mem_clients hc with hc | ⟨rfl, -, ctx, join, sid, peers, rfl, rfl⟩
    · exact (hs.joined hc).grow hgrow
    · obtain ⟨hr, hsession, -⟩ := hreq
      refine ⟨⟨s.nextUuid, Nat.lt_succ_self _, rfl⟩, hr, ?_⟩
      rw [hgrow.session hr, hsession]
      simp [addJoined, addClient, newClient]
  queued := by
    intro y q hq
    have hgrow := (apply_effect h).grow
    rcases apply_enqueued h hq with hq | ⟨e, k, rfl, rfl⟩
    · exact (hs.queued hq).grow hgrow
    · exact Fits.grow hgrow hreq
  allowed := by
    intro c
    rcases (apply_effect h).client c with ⟨rfl, hmakes⟩ | ⟨hclient, -⟩
    · obtain ⟨r, ctx, join, sid, peers, rfl, hnew⟩ := hmakes.clientAt
      rw [hnew]
      exact hreq.allowed
    · rw [hclient.principal, hclient.sessionId]
      exact hs.allowed c

/-- A bridge that takes an event keeps them too. -/
theorem Isolated.take? {c : String} {q : Queued} (hs : Isolated u s)
    (h : s.take? c = some (q, s')) : Isolated u s' where
  toHoused := hs.toHoused.take? h
  joined hc := by
    rw [take?_roomAt h] at hc
    exact (hs.joined hc).grow (Rely.take? (g := .direct 0) h).toGrow
  queued hq := by
    rw [take?_enqueued h] at hq
    exact (hs.queued hq).grow (Rely.take? (g := .direct 0) h).toGrow
  allowed c' := by
    obtain ⟨ch, -, rfl⟩ := take?_eq_some h
    have hclient : ClientGrow (s.clientAt c') ((s.modifyClient c fun cl =>
        { cl with sendCh := ch, taken := cl.taken ++ [q] }).clientAt c') :=
      clientGrow_modifyClient ⟨rfl, rfl, rfl, rfl, rfl, rfl, id, List.prefix_rfl⟩ c'
    rw [hclient.principal, hclient.sessionId]
    exact hs.allowed c'

end Step

/-! ### The programs -/

section Rules

variable {A : CollabService → Prop} {range : Range} {build : String → CollabEvent}

/-- The rule of a step. -/
theorem isolation_wp {o : ServiceOp} {Q : o.Res → CollabService → Prop} (hA : A s)
    (hstable : ∀ {s s'}, Rely u g s s' → A s → A s')
    (hreq : ∀ {s}, Isolated u s → A s → (isolation u).req g o s)
    (hpost : ∀ {n s s' a}, Isolated u s → A s → o.apply u g n s = some (s', a) → Q a s') :
    wp (ServiceOp.exec u) (isolation u) g (Call.perform o) Q s := by
  refine wp_op hA hstable hreq ?_
  intro n s₁ s₂ a hinv hA _ hx
  have happly := (exec_eq_some hx).2
  exact ⟨hinv.step (hreq hinv hA) happly, hpost hinv hA happly⟩

/-- A step that neither adds a client nor queues an event keeps whatever only grows. -/
theorem grow_keeps (hA : ∀ {s s'}, Grow u s s' → A s → A s') {o : ServiceOp}
    (hreq : ∀ s, (isolation u).req g o s) :
    Keeps (ServiceOp.exec u) (isolation u) g A (Call.perform o) :=
  fun _ hs => isolation_wp hs (fun hrely => hA hrely.toGrow) (fun _ _ => hreq _)
    fun _ hs hx => hA (apply_effect hx).grow hs

theorem requires_isolation_of_plain {o : ServiceOp} (ho : plain o = true) :
    (isolation u).req g o s := by
  cases o <;> trivial

/-- A broadcast keeps whatever only grows, if each event fits its receiver. -/
theorem broadcast_isolated (hA : ∀ {s s'}, Grow u s s' → A s → A s')
    (hroom : ∀ {s}, A s → r < s.nextRoom)
    (hsuits : ∀ {n s c}, Isolated u s → A s → c ∈ (s.rangeTargets r n range).1 → Suits (build c) c)
    (htogether : ∀ {s} c, A s →
      Belongs u (build c).fromClientId r s ∨ FromServer g (build c)) :
    Keeps (ServiceOp.exec u) (isolation u) g A (Call.broadcast r range build) := by
  let L : List String → CollabService → Prop := fun cs s =>
    Reading g r cs s ∧ A s ∧ ∀ c ∈ cs, Suits (build c) c
  have hstable : ∀ {cs s s'}, Rely u g s s' → L cs s → L cs s' :=
    fun hrely hs => ⟨hs.1.rely hrely, hA hrely.toGrow hs.2.1, hs.2.2⟩
  have hkept : ∀ {cs n o s s' a}, delivering o = true → o.apply u g n s = some (s', a) →
      L cs s → L cs s' :=
    fun ho hx hs => ⟨hs.1.delivering ho hx, hA (apply_effect hx).grow hs.2.1, hs.2.2⟩
  have htail : ∀ {c cs s}, L (c :: cs) s → L cs s :=
    fun hs => ⟨hs.1.tail, hs.2.1, fun c' hc' => hs.2.2 c' (List.mem_cons_of_mem _ hc')⟩
  intro s hs
  refine broadcast_wp (L := L) ?_ ?_ ?_
  · refine isolation_wp hs (fun hrely => hA hrely.toGrow) (fun _ _ => trivial) ?_
    intro n s s' a hinv hs hx
    have hA' := hA (apply_effect hx).grow hs
    obtain ⟨rfl, rfl⟩ := Prod.mk.inj (Option.some.inj hx)
    exact ⟨rlock_reading s g n range (hroom hs), hA', fun c hc => hsuits hinv hs hc⟩
  · intro c cs s hs
    refine deliver_steps (F := fun _ => L (c :: cs)) (M := fun _ => L (c :: cs)) ?_ ?_ ?_
    · refine isolation_wp hs hstable (fun _ _ => trivial) ?_
      intro n s s' call _ hs hx
      have hs' := hkept rfl hx hs
      exact ⟨fun _ => htail hs', fun _ _ => hs'⟩
    · intro k s hs
      refine isolation_wp hs hstable ?_ ?_
      · intro s hinv hs
        refine ⟨hs.2.2 c List.mem_cons_self, (htogether c hs.2.1).imp_left fun hfrom => ?_⟩
        exact hfrom.together (hinv.joined (hs.1.clients c List.mem_cons_self))
      · intro n s s' queued _ hs hx
        have hs' := hkept rfl hx hs
        exact ⟨fun _ => htail hs', fun _ => hs'⟩
    · intro k s hs
      refine isolation_wp hs hstable (fun _ _ => trivial) ?_
      exact fun _ hs hx => htail (hkept rfl hx hs)
  · intro s hs
    exact grow_keeps (o := .runlock r) hA (fun _ => trivial) s hs.2.1

end Rules

/-! ### Actions of a client -/

/-- An event that `x` sends to the whole room. -/
structure TellsAll (x : String) (e : CollabEvent) : Prop where
  fromClientId : e.fromClientId = x
  unaddressed : ∀ {msg}, e.event = .appMessage msg → msg.toClientIds = []

theorem TellsAll.suits {e : CollabEvent} (h : TellsAll x e) (hne : y ≠ x) : Suits e y :=
  ⟨fun hown => absurd (hown.symm.trans h.fromClientId) hne, fun hmsg => Or.inl (h.unaddressed hmsg)⟩

theorem addressedEvent_suits (eventId x : String) (msg : AppMessage) (y : String) :
    Suits (addressedEvent eventId x msg y) y := by
  refine ⟨fun _ => ⟨_, rfl, rfl⟩, fun {msg'} hmsg => Or.inr ?_⟩
  obtain rfl := Event.appMessage.inj hmsg
  rfl

/-- A range that leaves out `x` does so by the name of its clients. -/
theorem ne_of_mem_exceptTargets (hs : Base u s) (hy : y ∈ s.exceptTargets r x) : y ≠ x := by
  obtain ⟨hmem, hname⟩ := List.mem_filter.mp hy
  rintro rfl
  simp [hs.named hmem] at hname

/-- `Belongs`, after `x` was removed from room `r`. -/
structure HasLeft (u : UuidSource) (x : String) (r : RoomRef) (s : CollabService) : Prop
    extends Belongs u x r s where
  absent : x ∉ (s.roomAt r).clients

theorem HasLeft.grow (hgrow : Grow u s s') (h : HasLeft u x r s) : HasLeft u x r s' :=
  ⟨h.toBelongs.grow hgrow, hgrow.gone h.issued h.absent⟩

section Actions

variable {eventId : String}

theorem others_keeps {e : CollabEvent} {range : Range} (he : TellsAll x e)
    (hrange : range = .except x ∨ range = .announce x) :
    Keeps (ServiceOp.exec u) (isolation u) g (Belongs u x r)
      (Call.broadcast r range fun _ => e) := by
  refine broadcast_isolated .grow (fun hs => hs.room) ?_ fun c hs => Or.inl ?_
  · intro n s c hinv hs hc
    refine he.suits (ne_of_mem_exceptTargets (r := r) hinv.toBase ?_)
    rcases hrange with rfl | rfl <;> exact (rangeOrder_perm n _).mem_iff.mp hc
  · exact he.fromClientId ▸ hs

theorem listed_keeps (msg : AppMessage) :
    Keeps (ServiceOp.exec u) (isolation u) g (Belongs u x r)
      (Call.broadcast r (.each msg.toClientIds) (addressedEvent eventId x msg)) :=
  broadcast_isolated .grow (fun hs => hs.room) (fun _ _ _ => addressedEvent_suits _ _ _ _)
    fun _ hs => Or.inl hs

/-- Whoever has left the room is told nothing of it. -/
theorem farewell_keeps {e : CollabEvent} (he : TellsAll x e) :
    Keeps (ServiceOp.exec u) (isolation u) g (HasLeft u x r)
      (Call.broadcast r .all fun _ => e) := by
  refine broadcast_isolated .grow (fun hs => hs.room) ?_ fun c hs => Or.inl ?_
  · intro n s c hinv hs hc
    refine he.suits fun heq => hs.absent ?_
    exact heq ▸ (rangeOrder_perm _ _).mem_iff.mp hc
  · exact he.fromClientId ▸ hs.toBelongs

theorem left_keeps {o : ServiceOp} (ho : plain o = true) :
    Keeps (ServiceOp.exec u) (isolation u) g (HasLeft u x r) (Call.perform o) :=
  grow_keeps .grow fun _ => requires_isolation_of_plain ho

theorem here_keeps {o : ServiceOp} (ho : plain o = true) :
    Keeps (ServiceOp.exec u) (isolation u) g (Belongs u x r) (Call.perform o) :=
  grow_keeps .grow fun _ => requires_isolation_of_plain ho

theorem anywhere_keeps {o : ServiceOp} (ho : ∀ s, (isolation u).req g o s) :
    Keeps (ServiceOp.exec u) (isolation u) g (fun _ => True) (Call.perform o) :=
  grow_keeps (fun _ _ => trivial) ho

theorem announceLeft_isolated (reason : String) (count : Nat) :
    Keeps (ServiceOp.exec u) (isolation u) g (HasLeft u x r)
      (Call.announceLeft x reason r count) :=
  .bind (left_keeps rfl) fun _ => .bind (farewell_keeps ⟨rfl, nofun⟩) fun _ =>
    .bind (.onlyIf (left_keeps rfl)) fun _ => .bind (left_keeps rfl) fun _ => .ret _

theorem endRoom_isolated :
    Keeps (ServiceOp.exec u) (isolation u) g (HasLeft u x r) (Call.endRoom x r) :=
  .bind (left_keeps rfl) fun _ => .bind (farewell_keeps ⟨rfl, nofun⟩) fun _ =>
    .bind (left_keeps rfl) fun _ => .bind (left_keeps rfl) fun _ =>
    .bind (left_keeps rfl) fun _ => .ret _

theorem leaveOwner_isolated (reason browserId : String) (count : Nat) :
    Keeps (ServiceOp.exec u) (isolation u) g (HasLeft u x r)
      (Call.leaveOwner x reason r browserId count) := by
  have hfind : Keeps (ServiceOp.exec u) (isolation u) g (HasLeft u x r)
      (Call.findSuccessor r browserId x) := by
    unfold Call.findSuccessor
    split
    · exact left_keeps rfl
    · exact .ret _
  refine .bind hfind fun successor => ?_
  cases successor with
  | none => exact endRoom_isolated
  | some successor =>
    refine .bind (left_keeps rfl) fun _ => .bind (left_keeps rfl) fun eventId => ?_
    intro s hs
    refine wp_bind (wp_mono ?_ (perform_post (B := TellsAll x) (left_keeps rfl) ?_ hs))
    · rintro e s₁ ⟨hs₁, he⟩
      exact Keeps.bind (farewell_keeps he) (fun _ => announceLeft_isolated reason count) s₁ hs₁
    · intro n s s' e hx
      obtain ⟨-, rfl⟩ := Prod.mk.inj (Option.some.inj hx)
      exact ⟨rfl, nofun⟩

theorem relay_isolated (action : Action) {event : Event} (hevent : relayed action = some event) :
    Keeps (ServiceOp.exec u) (isolation u) g (Belongs u x r)
      (Call.relay x r action eventId event) := by
  have htells : addressed? action = none → TellsAll x { eventId, fromClientId := x, event } := by
    intro hnone
    refine ⟨rfl, fun {msg} hmsg => ?_⟩
    cases action <;> simp [relayed] at hevent <;> subst hevent <;> simp at hmsg
    subst hmsg
    simpa [addressed?] using hnone
  unfold Call.relay
  split
  · rename_i hnone
    exact .bind (others_keeps (htells hnone) (Or.inl rfl)) fun _ =>
      .bind (here_keeps rfl) fun _ => .ret _
  · refine .bind (listed_keeps _) fun missing => .bind (here_keeps rfl) fun _ => ?_
    split
    · exact .ret _
    · exact .bind (here_keeps rfl) fun _ => .ret _

theorem noteRelayed_isolated (action : Action) :
    Keeps (ServiceOp.exec u) (isolation u) g (Belongs u x r) (Call.noteRelayed r action) := by
  unfold Call.noteRelayed
  split
  · split
    · exact here_keeps rfl
    · exact .ret _
  · exact here_keeps rfl
  · exact .ret _

/-- The client of an action belongs to the room that is found for it. -/
theorem find_isolated {α : Type} {f : Option RoomRef → Call α}
    (hnone : Keeps (ServiceOp.exec u) (isolation u) g (fun _ => True) (f none))
    (hsome : ∀ r s, Belongs u x r s →
      wp (ServiceOp.exec u) (isolation u) g (f (some r)) (fun _ _ => True) s) :
    Keeps (ServiceOp.exec u) (isolation u) g (fun _ => True)
      (Call.perform (.findRoomForClient x) >>= f) := by
  intro s _
  refine wp_bind (isolation_wp (A := fun _ => True) trivial (fun _ _ => trivial)
    (fun _ _ => trivial) ?_)
  intro n s s' room hinv _ hx
  have hgrow := (apply_effect hx).grow
  obtain ⟨-, rfl⟩ := Prod.mk.inj (Option.some.inj hx)
  cases hfind : s.findRoomForClient x with
  | none => exact hnone _ trivial
  | some r => exact hsome r _ ((hinv.joined (findRoomForClient_eq_some hfind).2).grow hgrow)

theorem handleLeave_isolated (leave : LeaveRoom) :
    Keeps (ServiceOp.exec u) (isolation u) g (fun _ => True) (Call.handleLeave x leave) := by
  refine find_isolated (.ret _) fun r s hs => ?_
  refine wp_bind (wp_mono ?_ (here_keeps rfl s hs))
  intro flags s₁ hs₁
  refine wp_bind (isolation_wp hs₁ (fun hrely => .grow hrely.toGrow) (fun _ _ => trivial) ?_)
  intro n s₂ s₃ a hinv hs₂ hx
  have hleft : HasLeft u x r s₃ := by
    refine ⟨hs₂.grow (apply_effect hx).grow, ?_⟩
    obtain ⟨rfl, -⟩ := Prod.mk.inj (lock_eq_some hx).2
    simpa [removeLeft, CollabService.removeClient] using (hinv.nodup r).not_mem_erase
  refine wp_mono (fun _ _ _ => trivial) (Keeps.bind (left_keeps rfl) (fun count => ?_) s₃ hleft)
  split
  · exact leaveOwner_isolated _ _ _
  · exact announceLeft_isolated _ _

theorem handlePresence_isolated (presence : PresenceUpdate) :
    Keeps (ServiceOp.exec u) (isolation u) g (fun _ => True) (Call.handlePresence x presence) := by
  refine find_isolated (.ret _) fun r s hs => wp_mono (fun _ _ _ => trivial)
    (Keeps.bind (here_keeps rfl) (fun eventId => .bind ?_ fun _ => .ret _) s hs)
  exact others_keeps ⟨rfl, nofun⟩ (Or.inl rfl)

theorem handleBroadcast_isolated (action : Action) :
    Keeps (ServiceOp.exec u) (isolation u) g (fun _ => True) (Call.handleBroadcast x action) := by
  refine find_isolated (.ret _) fun r s hs => wp_mono (fun _ _ _ => trivial)
    (Keeps.bind (here_keeps rfl) (fun eventId => ?_) s hs)
  split
  · exact .ret _
  · rename_i event hevent
    exact .bind (noteRelayed_isolated action) fun _ => relay_isolated action hevent

end Actions

/-! ### Joins -/

theorem accept_isolated (ctx : Ctx) (join : JoinRoom) {sid : String} {enc : Bool}
    (hs : Hosts ctx r sid s) :
    wp (ServiceOp.exec u) (isolation u) g (Call.accept ctx join sid r enc) (fun _ _ => True) s := by
  refine wp_bind (wp_mono ?_ (grow_keeps (A := Hosts ctx r sid) (o := .getPeerInfo r) .grow
    (fun _ => trivial) s hs))
  intro peers s₁ hs₁
  refine wp_bind (isolation_wp (o := .addClient r ctx join sid peers) hs₁
    (fun hrely => .grow hrely.toGrow) (fun _ hs => hs) ?_)
  intro n s₂ s₃ c hinv hs₂ hx
  have hbelongs : Belongs u c r s₃ := by
    have hinv' := hinv.step (o := .addClient r ctx join sid peers) hs₂ hx
    obtain ⟨rfl, rfl⟩ := Prod.mk.inj (lock_eq_some hx).2
    exact hinv'.joined (by simp [addJoined, addClient, newClient])
  refine wp_mono (fun _ _ _ => trivial) (Keeps.bind (here_keeps rfl) (fun _ =>
    .bind (here_keeps rfl) fun eventId => ?_) s₃ hbelongs)
  intro s₄ hs₄
  refine wp_bind (wp_mono ?_ (perform_post (B := TellsAll c) (here_keeps rfl) ?_ hs₄))
  · rintro e s₅ ⟨hs₅, he⟩
    exact Keeps.bind (others_keeps he (Or.inr rfl)) (fun _ => .bind (here_keeps rfl) fun _ =>
      .bind (grow_keeps (o := .roomJoinedEvent ..) .grow fun _ => trivial) fun _ => .ret _) s₅ hs₅
  · intro n s s' e hx
    obtain ⟨-, rfl⟩ := Prod.mk.inj (Option.some.inj hx)
    exact ⟨rfl, fun h => by cases h⟩

theorem isolation_joinRules (ctx : Ctx) (join : JoinRoom) :
    JoinRules u (isolation u) g ctx join (fun _ => True) (fun sid r => Hosts ctx r sid)
      fun _ _ => True where
  forget _ := trivial
  refused _ _ := trivial
  outside ho := anywhere_keeps fun _ => requires_isolation_of_plain ho
  create {sid s} hallows _ hs := by
    refine isolation_wp (A := fun _ => True) trivial (fun _ _ => trivial) (fun _ _ => trivial) ?_
    intro n s s' r hinv _ hx
    have hbase' := hinv.toBase.effect (apply_effect hx)
    obtain ⟨rfl, rfl⟩ := Prod.mk.inj (Option.some.inj hx)
    obtain ⟨hroom, hsession⟩ := hbase'.registered (getOrCreateRoom_registered s sid)
    exact ⟨hroom, hsession, hallows⟩
  inside ho := grow_keeps .grow fun _ => requires_isolation_of_plain ho
  accept hs := accept_isolated ctx join hs

/-! ### The calls -/

/-- `HandleAction` keeps the sessions apart. -/
theorem handleAction_isolated (ctx : Ctx) (a : CollabAction) :
    Keeps (ServiceOp.exec u) (isolation u) g (fun _ => True) (Call.handleAction ctx a) := by
  refine .bind ?_ fun _ => .bind (anywhere_keeps (o := .handled) fun _ => trivial) fun _ => .ret _
  unfold Call.route
  split
  · exact fun s hs => (isolation_joinRules ctx _).handleJoin_wp hs
  · exact handleLeave_isolated _
  · exact handlePresence_isolated _
  · exact handleBroadcast_isolated _
  · exact .ret _

theorem fromServer_keeps {k : Nat} {range : Range} {build : String → CollabEvent}
    (hserver : ∀ c, FromServer (.direct k) (build c))
    (hsuits : ∀ {n s c}, Isolated u s → c ∈ (s.rangeTargets r n range).1 → Suits (build c) c) :
    Keeps (ServiceOp.exec u) (isolation u) (.direct k) (fun s => r < s.nextRoom)
      (Call.broadcast r range build) :=
  broadcast_isolated (fun hgrow hr => hr.trans_le hgrow.nextRoom) id
    (fun hinv _ hc => hsuits hinv hc) fun c _ => Or.inr (hserver c)

/-- So does `DeliverAppMessage` of an embedding server. -/
theorem deliverAppMessage_isolated (k : Nat) (sid x : String) (msg : AppMessage) :
    Keeps (ServiceOp.exec u) (isolation u) (.direct k) (fun _ => True)
      (Call.deliverAppMessage sid x msg) := by
  have hplain : ∀ {r : RoomRef} {o : ServiceOp}, plain o = true →
      Keeps (ServiceOp.exec u) (isolation u)
      (.direct k) (fun s => r < s.nextRoom) (Call.perform o) :=
    fun ho => grow_keeps (fun hgrow hr => hr.trans_le hgrow.nextRoom)
      fun _ => requires_isolation_of_plain ho
  intro s _
  refine wp_bind (isolation_wp (A := fun _ => True) (o := .getRoomByID sid) trivial
    (fun _ _ => trivial) (fun _ _ => trivial) ?_)
  intro n s s' room hinv _ hx
  obtain ⟨rfl, rfl⟩ := Prod.mk.inj (Option.some.inj hx)
  cases hlook : s.getRoomByID sid with
  | none => exact trivial
  | some r =>
    refine wp_mono (fun _ _ _ => trivial) (Keeps.bind (hplain rfl) (fun eventId => ?_) s
      (hinv.registered hlook).1)
    split
    · rename_i hall
      refine .bind (fromServer_keeps (fun _ => ⟨⟨k, rfl⟩, msg, rfl⟩) ?_) fun _ =>
        .bind (hplain rfl) fun _ => .ret _
      intro n s c hinv hc
      have htells : TellsAll x { eventId, fromClientId := x, event := .appMessage msg } :=
        ⟨rfl, fun hmsg => Event.appMessage.inj hmsg ▸ hall⟩
      exact htells.suits
        (ne_of_mem_exceptTargets (r := r) hinv.toBase ((rangeOrder_perm n _).mem_iff.mp hc))
    · exact .bind (fromServer_keeps (fun _ => ⟨⟨k, rfl⟩, _, rfl⟩)
        fun _ _ => addressedEvent_suits _ _ _ _) fun _ => .bind (hplain rfl) fun _ => .ret _

end CollabService

end MassRelay

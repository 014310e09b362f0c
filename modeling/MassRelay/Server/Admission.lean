import MassRelay.Server.Membership

/-!
# MassRelay.Server.Admission

Joins that race for a room.

A join checks the participant limit, looks up or creates its room and adds its client in
sections of their own, so what a check found may no longer hold when the client is added.
Two joins can both find the last place free (`lastPlaceTakenTwice`), and the last leave
can unregister a room that a join is about to enter (`joinsRemovedRoom`) or that a rejoin
has found (`rejoinRecreatesRoom`). What has to hold when the client is added is what the
checks found: the room is not full (`AddsBelowLimit`), and it is the one registered under
the session (`AddsToRegistered`). Then no room ever holds more than the limit
(`participants_bounded`), and a client that joined is found in the room of its session
until it leaves (`joined_registered`). A rejoin creates no room unless the one it found is
removed before it gets it (`mustExist_createsNothing`).
-/

namespace MassRelay

open Threads CollabService

variable {u : UuidSource} {cfg : Nat → StreamConfig} {maxPeers : Int} {moves : List Move}
variable {t : System}

/-! ### The participant limit -/

/-- A client is only added to a room that is not full. -/
def AddsBelowLimit (_ : Goroutine) (o : ServiceOp) (s : CollabService) : Prop :=
  match o with
  | .addClient r _ _ _ _ => s.isFull r = false
  | _ => True

instance (g : Goroutine) (o : ServiceOp) (s : CollabService) :
    Decidable (AddsBelowLimit g o s) := by
  unfold AddsBelowLimit
  split <;> infer_instance

/-- No room holds more than `maxPeers` clients. -/
structure WithinLimit (maxPeers : Int) (s : CollabService) : Prop where
  limit : s.maxPeersPerRoom = maxPeers
  bounded : ∀ r, ((s.roomAt r).clients.length : Int) ≤ maxPeers

theorem WithinLimit.apply {s s' : CollabService} {g : Goroutine} {n : Nat} {o : ServiceOp}
    {a : o.Res} (hmax : 0 < maxPeers) (hs : WithinLimit maxPeers s) (hok : AddsBelowLimit g o s)
    (h : o.apply u g n s = some (s', a)) : WithinLimit maxPeers s' := by
  refine ⟨(apply_registry h).1.trans hs.limit, fun r => ?_⟩
  rcases apply_clients h r with hclients | ⟨-, hnil⟩
  · rw [hclients]
    unfold clientsAfter
    split
    · split
      · rename_i hr
        have hroom : s.isFull r = false := hr ▸ hok
        simp only [isFull, clientCount, hs.limit, Bool.and_eq_false_iff,
          decide_eq_false_iff_not] at hroom
        have hlength : ((s.roomAt r).clients.insert (s.uuid u)).length ≤
            (s.roomAt r).clients.length + 1 := by
          rw [List.length_insert]
          split <;> omega
        omega
      · exact hs.bounded r
    · split
      · rename_i c _
        have hlength : ((s.roomAt r).clients.erase c).length ≤ (s.roomAt r).clients.length :=
          List.erase_sublist.length_le
        have := hs.bounded r
        omega
      · exact hs.bounded r
    · split
      · simpa using hmax.le
      · exact hs.bounded r
    · exact hs.bounded r
  · rw [hnil]
    simpa using hmax.le

/-- In a run that adds clients only to rooms that are not full, no room exceeds the
limit. -/
theorem participants_bounded (hmax : 0 < maxPeers)
    (hguard : Machine.Guarded (System.step u cfg) (ServiceGuard AddsBelowLimit)
      (System.init maxPeers) moves)
    (h : System.run u cfg (System.init maxPeers) moves = some t) (r : RoomRef) :
    ((t.shared.svc.roomAt r).clients.length : Int) ≤ maxPeers := by
  have hlimit : WithinLimit maxPeers t.shared.svc := by
    refine service_invariant (I := WithinLimit maxPeers) ?_ ?_ ⟨rfl, fun _ => ?_⟩ hguard h
    · exact fun hm hg hs hx => hs.apply hmax (hm.ok hg) hx
    · intro s s' c q hs htake
      obtain ⟨ch, -, rfl⟩ := take?_eq_some htake
      exact ⟨hs.limit, hs.bounded⟩
    · simpa [System.init, newCollabService] using hmax.le
  exact hlimit.bounded r

/-- Two streams have both passed the limit check of an empty room for one. -/
def lastPlaceTwice : List Move :=
  List.flatten [
    .launch (.send 0 { action := some (.join { sessionId := "s1" }) }) ::
      List.replicate 5 (.run (.send 0) 0),
    .launch (.send 1 { action := some (.join { sessionId := "s1" }) }) ::
      List.replicate 5 (.run (.send 1) 0)]

/-- One stream joins it. -/
theorem participants_bounded_join : ∃ t,
    System.run .unary (fun _ => {}) (System.init 1)
      (lastPlaceTwice ++ [.run (.send 0) 0]) = some t ∧
    (t.shared.svc.roomAt 0).clients = ["u"] ∧
    ((t.shared.svc.roomAt 0).clients.length : Int) ≤ 1 := by
  have hrun : (Machine.execIf (System.step .unary fun _ => {}) (ServiceGuard AddsBelowLimit)
      (System.init 1) (lastPlaceTwice ++ [.run (.send 0) 0])).any (fun t =>
        (t.shared.svc.roomAt 0).clients = ["u"]) = true := by
    decide +kernel
  obtain ⟨t, ht, hclients⟩ := (Option.any_eq_true _ _).mp hrun
  obtain ⟨hguard, ht⟩ := Machine.execIf_eq_some ht
  exact ⟨t, ht, of_decide_eq_true hclients, participants_bounded (by decide) hguard ht 0⟩

/-- Both do. -/
theorem lastPlaceTakenTwice : ∃ t,
    System.run .unary (fun _ => {}) (System.init 1)
      (lastPlaceTwice ++ [.run (.send 0) 0, .run (.send 1) 0]) = some t ∧
    ¬ ((t.shared.svc.roomAt 0).clients.length : Int) ≤ 1 := by
  have hrun : (System.run .unary (fun _ => {}) (System.init 1)
      (lastPlaceTwice ++ [.run (.send 0) 0, .run (.send 1) 0])).any (fun t =>
        ¬ ((t.shared.svc.roomAt 0).clients.length : Int) ≤ 1) = true := by
    decide +kernel
  obtain ⟨t, ht, hlength⟩ := (Option.any_eq_true _ _).mp hrun
  exact ⟨t, ht, of_decide_eq_true hlength⟩

/-! ### Rooms and their members -/

/-- A client is only added to the room that is registered under its session. -/
def AddsToRegistered (_ : Goroutine) (o : ServiceOp) (s : CollabService) : Prop :=
  match o with
  | .addClient r _ _ sid _ => s.getRoomByID sid = some r
  | _ => True

instance (g : Goroutine) (o : ServiceOp) (s : CollabService) :
    Decidable (AddsToRegistered g o s) := by
  unfold AddsToRegistered
  split <;> infer_instance

/-- A step that takes client `c` out of a room: a leave of it, or the end of its session. -/
def TakesOut (c : String) (o : ServiceOp) (s : CollabService) : Prop :=
  match o with
  | .removeClient _ c' => c' = c
  | .closeAllClients r => c ∈ (s.roomAt r).clients
  | _ => False

instance (c : String) (o : ServiceOp) (s : CollabService) : Decidable (TakesOut c o s) := by
  unfold TakesOut
  split <;> infer_instance

/-- Some join made client `c`. -/
def Made (s : CollabService) (c : String) : Prop :=
  c ≠ "" ∧ (s.clientAt c).info.clientId = c

/-- Whoever is in a room is in the one registered under its session. -/
structure NoOrphans (u : UuidSource) (s : CollabService) : Prop where
  base : Base u s
  live : ∀ {r c}, c ∈ (s.roomAt r).clients → s.getRoomByID (s.clientAt c).sessionId = some r

theorem NoOrphans.apply {s s' : CollabService} {g : Goroutine} {n : Nat} {o : ServiceOp} {a : o.Res}
    (hs : NoOrphans u s) (hok : AddsToRegistered g o s) (h : o.apply u g n s = some (s', a)) :
    NoOrphans u s' := by
  refine ⟨hs.base.effect (apply_effect h), fun {r c} hc => ?_⟩
  rcases (apply_effect h).mem_clients hc with hc | ⟨rfl, -, ctx, join, sid, peers, rfl, rfl⟩
  · have hsession := ((apply_effect h).grow.client (hs.base.issued hc)).sessionId
    rw [hsession]
    rcases apply_registered h (hs.live hc) with hreg | ⟨r', -, -, hempty⟩
    · exact hreg
    · simp [hempty] at hc
  · have hsid : ((s.tick.addJoined r (newClient g ctx join sid (s.uuid u) peers)).clientAt
        (s.uuid u)).sessionId = sid := by simp [addJoined, addClient, newClient]
    rw [hsid]
    exact hok

/-- Who is in a room stays there if nothing takes it out. -/
theorem member_stays {s s' : CollabService} {g : Goroutine} {n : Nat} {o : ServiceOp} {a : o.Res}
    {c : String} {r : RoomRef} (hr : r < s.nextRoom) (hc : c ∈ (s.roomAt r).clients)
    (hstay : ¬ TakesOut c o s) (h : o.apply u g n s = some (s', a)) :
    c ∈ (s'.roomAt r).clients := by
  rcases apply_clients h r with hclients | ⟨hr', -⟩
  · rw [hclients]
    unfold clientsAfter
    split
    · split
      · exact List.mem_insert_of_mem hc
      · exact hc
    · split
      · refine (List.mem_erase_of_ne ?_).mpr hc
        rintro rfl
        exact hstay rfl
      · exact hc
    · split
      · rename_i hr
        exact absurd (hr ▸ hc) hstay
      · exact hc
    · exact hc
  · exact absurd hr' hr.ne

/-- The same, and a client that was made is still in its room if nothing took it out. -/
structure InRoom (u : UuidSource) (c : String) (s : CollabService) : Prop extends
    NoOrphans u s where
  member : Made s c → ∃ r, c ∈ (s.roomAt r).clients

theorem InRoom.apply {s s' : CollabService} {g : Goroutine} {n : Nat} {o : ServiceOp} {a : o.Res}
    {c : String} (hs : InRoom u c s) (hok : AddsToRegistered g o s) (hstay : ¬ TakesOut c o s)
    (h : o.apply u g n s = some (s', a)) : InRoom u c s' := by
  refine ⟨hs.toNoOrphans.apply hok h, fun hmade => ?_⟩
  rcases (apply_effect h).client c with ⟨rfl, hmakes⟩ | ⟨hclient, -⟩
  · exact hmakes.mem_clients
  · obtain ⟨r, hc⟩ := hs.member ⟨hmade.1, hclient.clientId.symm.trans hmade.2⟩
    exact ⟨r, member_stays (hs.base.registered (hs.live hc)).1 hc hstay h⟩

/-- Taking an event out of a queue moves nobody. -/
theorem take?_member {s s' : CollabService} {c : String} {q : Queued}
    (h : s.take? c = some (q, s')) (c' : String) :
    (s'.clientAt c').sessionId = (s.clientAt c').sessionId ∧
      (s'.clientAt c').info = (s.clientAt c').info := by
  obtain ⟨ch, -, rfl⟩ := take?_eq_some h
  by_cases hc : c' = c
  · subst hc
    simp
  · simp [hc]

theorem NoOrphans.take? {s s' : CollabService} {c : String} {q : Queued} (hs : NoOrphans u s)
    (h : s.take? c = some (q, s')) : NoOrphans u s' := by
  refine ⟨hs.base.take? h, fun {r c'} hc => ?_⟩
  rw [take?_roomAt h] at hc
  rw [(take?_member h c').1, getRoomByID, take?_rooms h]
  exact hs.live hc

theorem InRoom.take? {s s' : CollabService} {c c' : String} {q : Queued} (hs : InRoom u c s)
    (h : s.take? c' = some (q, s')) : InRoom u c s' := by
  refine ⟨hs.toNoOrphans.take? h, fun hmade => ?_⟩
  rw [take?_roomAt h]
  refine hs.member ⟨hmade.1, ?_⟩
  rw [← (take?_member h c).2]
  exact hmade.2

theorem noOrphans_run
    (hguard : Machine.Guarded (System.step u cfg) (ServiceGuard AddsToRegistered)
      (System.init maxPeers) moves)
    (h : System.run u cfg (System.init maxPeers) moves = some t) : NoOrphans u t.shared.svc := by
  refine service_invariant (I := NoOrphans u) ?_ ?_ ⟨.new maxPeers, ?_⟩ hguard h
  · exact fun hm hg hs hx => hs.apply (hm.ok hg) hx
  · exact fun hs htake => hs.take? htake
  · intro r c hc
    simp [System.init, newCollabService] at hc

theorem inRoom_run
    (hguard : Machine.Guarded (System.step u cfg) (ServiceGuard AddsToRegistered)
      (System.init maxPeers) moves)
    (h : System.run u cfg (System.init maxPeers) moves = some t) {c : String}
    (hstay : Machine.Guarded (System.step u cfg) (ServiceGuard fun _ o s => ¬ TakesOut c o s)
      (System.init maxPeers) moves) : InRoom u c t.shared.svc := by
  refine service_invariant (I := InRoom u c) ?_ ?_ ⟨⟨.new maxPeers, ?_⟩, ?_⟩ (hguard.and hstay) h
  · exact fun hm hg hs hx => hs.apply (hm.1.ok hg) (hm.2.ok hg) hx
  · exact fun hs htake => hs.take? htake
  · intro r c' hc'
    simp [System.init, newCollabService] at hc'
  · rintro ⟨hne, hnamed⟩
    exact absurd hnamed.symm hne

/-- In a run that adds clients only to registered rooms, a client that a join made is in the
room registered under its session, where `findRoomForClient` finds it, as long as neither a
leave of it nor the end of its session took it out. The session is the one that the
`RoomJoined` of its join names. -/
theorem joined_registered
    (hguard : Machine.Guarded (System.step u cfg) (ServiceGuard AddsToRegistered)
      (System.init maxPeers) moves)
    (h : System.run u cfg (System.init maxPeers) moves = some t) {c : String}
    (hstay : Machine.Guarded (System.step u cfg) (ServiceGuard fun _ o s => ¬ TakesOut c o s)
      (System.init maxPeers) moves) :
    (Made t.shared.svc c →
      ∃ r, t.shared.svc.getRoomByID (t.shared.svc.clientAt c).sessionId = some r ∧
        c ∈ (t.shared.svc.roomAt r).clients ∧ t.shared.svc.findRoomForClient c = some r) ∧
    ∀ i rj, rj ∈ (t.shared.streams i).answered → rj.clientId = c →
      ∃ r, t.shared.svc.getRoomByID rj.room.sessionId = some r ∧
        c ∈ (t.shared.svc.roomAt r).clients ∧ t.shared.svc.findRoomForClient c = some r := by
  have hroom := inRoom_run hguard h hstay
  have hmember : Made t.shared.svc c →
      ∃ r, t.shared.svc.getRoomByID (t.shared.svc.clientAt c).sessionId = some r ∧
        c ∈ (t.shared.svc.roomAt r).clients ∧ t.shared.svc.findRoomForClient c = some r := by
    intro hmade
    obtain ⟨r, hc⟩ := hroom.member hmade
    obtain ⟨r', hfind⟩ := findRoomForClient_isSome (hroom.live hc) hc
    have heq := (hroom.live (findRoomForClient_eq_some hfind).2).symm.trans (hroom.live hc)
    exact ⟨r, hroom.live hc, hc, hfind.trans heq⟩
  refine ⟨hmember, fun i rj hrj hc => ?_⟩
  have hanswered := (Relay.membership_holds h).inv.answered hrj
  subst hc
  obtain ⟨k, -, hk⟩ := hanswered.issued
  rw [← hanswered.session]
  exact hmember ⟨hk ▸ u.new_ne_empty k, hanswered.named⟩

/-- A stream joins `s1`. -/
def joinS1Stream : List Move :=
  .launch (.send 0 { action := some (.join { sessionId := "s1" }) }) ::
    List.replicate 19 (.run (.send 0) 0)

theorem joined_registered_join : ∃ t,
    System.run .unary (fun _ => {}) (System.init 10) joinS1Stream = some t ∧
    Made t.shared.svc "u" ∧ t.shared.svc.findRoomForClient "u" = some 0 := by
  have hrun : (Machine.execIf (System.step .unary fun _ => {}) (fun t m =>
      ServiceGuard AddsToRegistered t m ∧ ServiceGuard (fun _ o s => ¬ TakesOut "u" o s) t m)
      (System.init 10) joinS1Stream).any (fun t =>
        (t.shared.svc.clientAt "u").info.clientId = "u" ∧
        t.shared.svc.getRoomByID (t.shared.svc.clientAt "u").sessionId = some 0) = true := by
    decide +kernel
  obtain ⟨t, ht, hstate⟩ := (Option.any_eq_true _ _).mp hrun
  obtain ⟨hguard, ht⟩ := Machine.execIf_eq_some ht
  obtain ⟨hnamed, hreg⟩ := of_decide_eq_true hstate
  have hmade : Made t.shared.svc "u" := ⟨by decide, hnamed⟩
  obtain ⟨r, hr, -, hfind⟩ := (joined_registered (hguard.imp fun _ _ h => h.1) ht
    (hguard.imp fun _ _ h => h.2)).1 hmade
  exact ⟨t, ht, hmade, hfind.trans (hr.symm.trans hreg)⟩

/-- A second stream has looked up the room when the first, its only client, leaves; then it
goes on with its join. -/
def joinDuringLastLeave : List Move :=
  List.flatten [
    joinS1Stream,
    .launch (.send 1 { action := some (.join { sessionId := "s1" }) }) ::
      List.replicate 5 (.run (.send 1) 0),
    .launch (.send 0 { action := some (.leave ⟨"bye"⟩) }) :: List.replicate 12 (.run (.send 0) 0),
    List.replicate 12 (.run (.send 1) 0)]

/-- It is told that it joined `s1`, and no such room is registered. -/
theorem joinsRemovedRoom : ∃ t,
    System.run .unary (fun _ => {}) (System.init 10) joinDuringLastLeave = some t ∧
    Machine.Guarded (System.step .unary fun _ => {})
      (ServiceGuard fun _ o s => ¬ TakesOut "uuuuuu" o s) (System.init 10) joinDuringLastLeave ∧
    ∃ rj ∈ (t.shared.streams 1).answered, rj.clientId = "uuuuuu" ∧ rj.room.sessionId = "s1" ∧
      t.shared.svc.getRoomByID "s1" = none := by
  have hrun : (Machine.execIf (System.step .unary fun _ => {})
      (ServiceGuard fun _ o s => ¬ TakesOut "uuuuuu" o s) (System.init 10)
      joinDuringLastLeave).any (fun t => (t.shared.streams 1).answered.any (fun rj =>
        rj.clientId = "uuuuuu" ∧ rj.room.sessionId = "s1" ∧
        t.shared.svc.getRoomByID "s1" = none)) = true := by
    decide +kernel
  obtain ⟨t, ht, hstate⟩ := (Option.any_eq_true _ _).mp hrun
  obtain ⟨hstay, ht⟩ := Machine.execIf_eq_some ht
  obtain ⟨rj, hrj, hstate⟩ := List.any_eq_true.mp hstate
  exact ⟨t, ht, hstay, rj, hrj, of_decide_eq_true hstate⟩

/-! ### Rejoins

A rejoin asks for a room that exists (`mustExist`). It looks its session up before it
calls `GetOrCreateRoom`, and creates nothing as long as the room it found stays. -/

/-- The action joins a room that has to exist. -/
def mustExist (a : CollabAction) : Bool :=
  match a.action with
  | some (.join join) => join.mustExist
  | _ => false

/-- A launch that starts such a join in goroutine `g`. -/
def Launch.Rejoins (g : Goroutine) : Launch → Prop
  | .send i a => g = .send i ∧ mustExist a = true
  | .direct k (.handleAction _ a) => g = .direct k ∧ mustExist a = true
  | _ => False

/-- A step that neither registers a room nor unregisters one. -/
def Op.KeepsRegistry : Op → Prop
  | .service o => registering o = false
  | .stream _ _ => True

/-- What is left of a rejoin at its check: if the session has no room it goes on to answer
`ROOM_NOT_FOUND`, else it gets the room of that session. -/
def ChecksRoom (p : Proc Unit) : Prop :=
  ∃ sid finish enter,
    p = .op (.service (.getRoomByID sid)) (fun found =>
      if found.isNone then
        (Call.error "ROOM_NOT_FOUND" ("No room " ++ sid ++ " on this relay")).proc >>= finish
      else .op (.service (.getOrCreateRoom sid)) enter) ∧
    (∀ answer, (finish answer).All Op.KeepsRegistry) ∧ ∀ r, (enter r).All Op.KeepsRegistry

/-- Goroutine `g` is in a rejoin: it has yet to make its check, or is past `GetOrCreateRoom`,
or the session it is to get the room of has one. -/
def Rejoining (svc : CollabService) (p : Proc Unit) : Prop :=
  p.Until ChecksRoom Op.KeepsRegistry ∨
  ∃ sid enter, p = .op (.service (.getOrCreateRoom sid)) enter ∧
    (svc.getRoomByID sid).isSome = true ∧ ∀ r, (enter r).All Op.KeepsRegistry

/-- The move unregisters the room that goroutine `g` is about to get. -/
def RemovesNeeded (g : Goroutine) (t : System) : Move → Prop
  | .run g' _ =>
    match t.threads g', t.threads g with
    | some (.op (.service (.removeRoom r)) _), some (.op (.service (.getOrCreateRoom sid)) _) =>
      (t.shared.svc.roomAt r).sessionId = sid ∧
        (t.shared.svc.getRoomByID sid).any (t.shared.svc.isEmpty ·) = true
    | _, _ => False
  | .launch _ => False

instance (g : Goroutine) (t : System) (m : Move) : Decidable (RemovesNeeded g t m) :=
  decidable_of_iff ((match m with
    | .run g' _ =>
      match t.threads g', t.threads g with
      | some (.op (.service (.removeRoom r)) _), some (.op (.service (.getOrCreateRoom sid)) _) =>
        decide ((t.shared.svc.roomAt r).sessionId = sid ∧
          (t.shared.svc.getRoomByID sid).any (t.shared.svc.isEmpty ·) = true)
      | _, _ => false
    | .launch _ => false) = true) (by
      unfold RemovesNeeded
      split
      · split <;> simp
      · simp)

/-! #### What a rejoin runs -/

namespace Call

theorem error_keepsRegistry (code message : String) :
    (error code message).All (registering · = false) :=
  .bind (.perform rfl) fun _ => trivial

theorem deliverEach_keepsRegistry (targets : List (String × CollabEvent)) :
    (deliverEach targets).All (registering · = false) := by
  induction targets with
  | nil => trivial
  | cons target targets ih =>
    refine .bind (.bind (.perform rfl) fun call => ?_) fun _ => ih
    cases call with
    | none => trivial
    | some call =>
      refine .bind (.perform rfl) fun queued => ?_
      split
      · trivial
      · exact .perform rfl

theorem accept_keepsRegistry (ctx : Ctx) (join : JoinRoom) (sid : String) (r : RoomRef)
    (encrypted : Bool) : (accept ctx join sid r encrypted).All (registering · = false) :=
  .bind (.perform rfl) fun _ => .bind (.perform rfl) fun _ => .bind (.perform rfl) fun _ =>
  .bind (.perform rfl) fun _ => .bind (.perform rfl) fun _ =>
  .bind (.bind (.perform rfl) fun _ => .bind (deliverEach_keepsRegistry _) fun _ =>
    .bind (.perform rfl) fun _ => trivial) fun _ =>
  .bind (.perform rfl) fun _ => .bind (.perform rfl) fun _ => trivial

theorem enterRoom_keepsRegistry (ctx : Ctx) (join : JoinRoom) (sid : String) (r : RoomRef) :
    (enterRoom ctx join sid r).All (registering · = false) := by
  have hcheck : (checkEncryption ctx join sid r).All (registering · = false) := by
    refine .bind (.onlyIf (.perform rfl)) fun _ => .bind (.perform rfl) fun encrypted => ?_
    split
    · exact error_keepsRegistry _ _
    · exact accept_keepsRegistry ctx join sid r encrypted
  refine .bind (.perform rfl) fun full => ?_
  split
  · exact .bind (.perform rfl) fun _ => error_keepsRegistry _ _
  · split
    · refine .bind (.perform rfl) fun elsewhere => ?_
      split
      · trivial
      · exact hcheck
    · exact hcheck

theorem resolveSession_keepsRegistry (join : JoinRoom) :
    (resolveSession join).All (registering · = false) := by
  unfold resolveSession
  split
  · trivial
  · split
    · refine .bind (.perform rfl) fun existing => ?_
      split
      · trivial
      · exact .perform rfl
    · exact .perform rfl

/-- A rejoin makes its check before it gets the room, and the two are of one session. -/
theorem handleJoin_checks {ctx : Ctx} {join : JoinRoom} (hexist : join.mustExist = true)
    {finish : Answer → Proc Unit} (hfinish : ∀ answer, (finish answer).All Op.KeepsRegistry) :
    ((handleJoin ctx join).proc >>= finish).Until ChecksRoom Op.KeepsRegistry := by
  have hhint : ∀ sid, (Prog.onlyIf (join.clientHint ≠ "")
      (perform (.indexHint join.clientHint sid))).All (registering · = false) :=
    fun _ => .onlyIf (.perform rfl)
  unfold handleJoin
  split
  · exact .bind (error_keepsRegistry _ _).embed fun answer => .of_all (hfinish answer)
  · simp only [lacksRoom, hexist, if_true, Call.proc, Prog.embed_bind, Prog.bind_assoc]
    refine .bind (resolveSession_keepsRegistry join).embed fun sid => ?_
    refine .bind (hhint sid).embed fun _ => Or.inl ?_
    refine ⟨sid, finish, fun r => (enterRoom ctx join sid r).proc >>= finish, ?_, hfinish, ?_⟩
    · congr
      funext found
      cases found <;> rfl
    · exact fun r => .bind (enterRoom_keepsRegistry ctx join sid r).embed hfinish

end Call

theorem handled_keepsRegistry {finish : Answer → Proc Unit}
    (hfinish : ∀ answer, (finish answer).All Op.KeepsRegistry) (answer : Answer) :
    ((do
      Call.perform .handled
      return answer : Call Answer).proc >>= finish).All Op.KeepsRegistry :=
  ⟨rfl, fun _ => hfinish answer⟩

theorem refuse_keepsRegistry (i : Nat) (code message : String) :
    (Stream.refuse i code message).All Op.KeepsRegistry :=
  ⟨rfl, fun _ => .bind (p := Stream.perform i _) (.perform trivial) fun _ => trivial⟩

theorem sendAnswer_keepsRegistry (i : Nat) (joining : Bool) (answer : Answer) :
    (Stream.sendAnswer i joining answer).All Op.KeepsRegistry := by
  have hreply : ∀ e, (Stream.reply i e).All Op.KeepsRegistry :=
    fun _ => .bind (.perform trivial) fun _ => trivial
  have hgetClient : ∀ sid c, (Call.getClient sid c).All (registering · = false) := by
    intro sid c
    refine .bind (.perform rfl) fun room => ?_
    cases room with
    | none => trivial
    | some r => exact .perform rfl
  cases answer with
  | err message | nothing => trivial
  | event e =>
    refine .bind ?_ fun _ => hreply e
    unfold Stream.noteJoined
    split
    · refine .onlyIf (.bind (.perform trivial) fun _ => .bind (hgetClient _ _).embed fun _ =>
        .onlyIf (.perform trivial))
    · trivial

/-- What a launch of a rejoin starts. -/
theorem Launch.rejoins_checks {m : Launch} {g : Goroutine} {s s' : Relay}
    {start : Option (Goroutine × Proc Unit)} (hm : m.Rejoins g)
    (h : m.apply cfg s = some (s', start)) :
    ∃ p, start = some (g, p) ∧ p.Until ChecksRoom Op.KeepsRegistry := by
  have hroute : ∀ {ctx a} {finish : Answer → Proc Unit}, mustExist a = true →
      (∀ answer, (finish answer).All Op.KeepsRegistry) →
      ((Call.handleAction ctx a).proc >>= finish).Until ChecksRoom Op.KeepsRegistry := by
    intro ctx a finish ha hfinish
    unfold mustExist at ha
    split at ha
    · rename_i join haction
      simp only [Call.handleAction, Call.route, haction, Call.proc, Prog.embed_bind,
        Prog.bind_assoc]
      exact Call.handleJoin_checks ha (handled_keepsRegistry hfinish)
    · simp at ha
  cases m with
  | send i a =>
    obtain ⟨rfl, ha⟩ := hm
    obtain ⟨-, rfl⟩ := Prod.mk.inj (Option.some.inj h)
    refine ⟨_, rfl, ?_⟩
    have hjoin : Stream.isJoin a.action = true ∧ Stream.isControl a.action = true := by
      unfold mustExist at ha
      split at ha
      · rename_i haction
        rw [haction]
        exact ⟨rfl, rfl⟩
      · simp at ha
    have hsend : Stream.send (cfg i) i a = Stream.sendChecked (cfg i) i a := by
      unfold Stream.send
      split
      · rfl
      · rw [if_pos hjoin.2]
    rw [hsend]
    simp only [Stream.sendChecked, hjoin.1, if_true, Prog.bind_assoc]
    refine .bind (.perform trivial) fun joinedAs => ?_
    split
    · exact .of_all (.bind (refuse_keepsRegistry ..) fun _ => trivial)
    · simp only [Stream.sendAction, Prog.bind_assoc]
      exact hroute ha fun answer => .bind (sendAnswer_keepsRegistry ..) fun _ => trivial
  | direct k call =>
    cases call with
    | handleAction ctx a =>
      obtain ⟨rfl, ha⟩ := hm
      obtain ⟨-, rfl⟩ := Prod.mk.inj (Option.some.inj h)
      exact ⟨_, rfl, hroute ha fun _ => trivial⟩
    | deliverAppMessage sid c msg => exact hm.elim
  | _ => exact hm.elim

/-! #### What others do meanwhile -/

theorem Rejoining.of_rooms {svc svc' : CollabService} {p : Proc Unit} (h : svc'.rooms = svc.rooms)
    (hp : Rejoining svc p) : Rejoining svc' p := by
  rcases hp with hp | ⟨sid, enter, rfl, hreg, henter⟩
  · exact Or.inl hp
  · exact Or.inr ⟨sid, enter, rfl, by rwa [getRoomByID, h], henter⟩

theorem Op.KeepsRegistry.rooms {g : Goroutine} {n : Nat} {s s' : Relay} {o : Op} {a : o.Res}
    (ho : o.KeepsRegistry) (h : o.exec u g n s = some (s', a)) : s'.svc.rooms = s.svc.rooms := by
  cases o with
  | service o => exact (apply_registry (Op.exec_service h).2.1).2 ho
  | stream i o => rw [StreamOp.apply_svc (Op.exec_stream h).2]

/-- A step of a rejoin leaves the registry alone, and the rejoin goes on. -/
theorem Rejoining.step {g : Goroutine} {n : Nat} {s s' : Relay} {o : Op} {k : o.Res → Proc Unit}
    {a : o.Res} (hp : Rejoining s.svc (.op o k)) (h : o.exec u g n s = some (s', a)) :
    s'.svc.rooms = s.svc.rooms ∧ Rejoining s'.svc (k a) := by
  rcases hp with (⟨sid, finish, enter, hcheck, hfinish, henter⟩ | ⟨hnothing, hrest⟩) |
    ⟨sid, enter, hget, hreg, henter⟩
  · obtain ⟨rfl, hk⟩ := Prog.op.inj hcheck
    obtain rfl := eq_of_heq hk
    obtain ⟨-, happly, -⟩ := Op.exec_service h
    obtain ⟨hsvc, rfl⟩ := Prod.mk.inj (Option.some.inj happly)
    rw [← hsvc]
    refine ⟨rfl, ?_⟩
    dsimp only
    split
    · exact Or.inl (.of_all (.bind (Call.error_keepsRegistry _ _).embed hfinish))
    · rename_i hfound
      exact Or.inr ⟨sid, enter, rfl, by simpa [Option.isSome_iff_ne_none] using hfound, henter⟩
  · exact ⟨hnothing.rooms h, Or.inl (hrest a)⟩
  · obtain ⟨rfl, hk⟩ := Prog.op.inj hget
    obtain rfl := eq_of_heq hk
    obtain ⟨-, happly, -⟩ := Op.exec_service h
    obtain ⟨hsvc, -⟩ := Prod.mk.inj (Option.some.inj happly)
    obtain ⟨r, hr⟩ := Option.isSome_iff_exists.mp hreg
    rw [← hsvc, getOrCreateRoom_of_registered hr]
    exact ⟨rfl, Or.inl (.of_all (henter a))⟩

theorem Launch.apply_rooms {m : Launch} {s s' : Relay} {start : Option (Goroutine × Proc Unit)}
    (h : m.apply cfg s = some (s', start)) : s'.svc.rooms = s.svc.rooms := by
  rcases Launch.apply_svc h with heq | ⟨c, q, htake⟩
  · rw [heq]
  · exact take?_rooms htake

/-- What another goroutine does leaves a rejoin what it found, unless it unregisters that. -/
theorem Rejoining.other {g g' : Goroutine} {n : Nat} {s' : Relay} {o : Op} {k : o.Res → Proc Unit}
    {a : o.Res} {p : Proc Unit} (hg : t.threads g = some p) (hg' : t.threads g' = some (.op o k))
    (hp : Rejoining t.shared.svc p) (hstay : ¬ RemovesNeeded g t (.run g' n))
    (h : o.exec u g' n t.shared = some (s', a)) : Rejoining s'.svc p := by
  rcases hp with hp | ⟨sid, enter, rfl, hreg, henter⟩
  · exact Or.inl hp
  · refine Or.inr ⟨sid, enter, rfl, ?_, henter⟩
    cases o with
    | stream i o => rwa [StreamOp.apply_svc (Op.exec_stream h).2]
    | service o =>
      obtain ⟨r, hr⟩ := Option.isSome_iff_exists.mp hreg
      rcases apply_registered (Op.exec_service h).2.1 hr with hr' | ⟨r', rfl, hsid, hempty⟩
      · simp [hr']
      · refine absurd ?_ hstay
        simp [RemovesNeeded, hg, hg', hsid, hr, isEmpty, hempty]

/-- The rejoin that goroutine `g` is in goes on as long as nobody unregisters the room it is
about to get. -/
theorem rejoining_run {g : Goroutine} {t₁ t₂ : System}
    (hp : ∀ p, t₁.threads g = some p → Rejoining t₁.shared.svc p)
    (hguard : Machine.Guarded (System.step u cfg)
      (fun t m => (t.threads g).isSome = true ∧ ¬ RemovesNeeded g t m) t₁ moves)
    (h : System.run u cfg t₁ moves = some t₂) {p' : Proc Unit} (hg' : t₂.threads g = some p') :
    Rejoining t₂.shared.svc p' := by
  refine Machine.invariant_guarded
    (I := fun t : System => ∀ p, t.threads g = some p → Rejoining t.shared.svc p) ?_ hp hguard h p'
    hg'
  rintro t m t' ht ⟨hsome, hstay⟩ hmove p' hp'
  obtain ⟨p, hg⟩ := Option.isSome_iff_exists.mp hsome
  refine running_step (J := fun s p => Rejoining s.svc p) hmove hg ?_ ?_ ?_ hp'
  · rintro n o k s a - rfl hx
    exact ((ht _ hg).step hx).2
  · rintro g' n o k s a rfl - hg' hx
    exact (ht p hg).other hg hg' hstay hx
  · rintro m' s start - hl
    exact (ht p hg).of_rooms (Launch.apply_rooms (Launch.launch_eq_some hl).2)

/-- A rejoin that nobody takes its room from registers none: it looks its session up,
answers `ROOM_NOT_FOUND` if there is no room (`ChecksRoom`), and gets a room that is there.
`t₀` to `t₁` is its launch, `t₂` to `t₃` any step of it, and `moves` are those in between. -/
theorem mustExist_createsNothing {g : Goroutine} {m : Launch} {n : Nat} {t₀ t₁ t₂ t₃ : System}
    (hm : m.Rejoins g) (hlaunch : System.step u cfg t₀ (.launch m) = some t₁)
    (hguard : Machine.Guarded (System.step u cfg)
      (fun t m => (t.threads g).isSome = true ∧ ¬ RemovesNeeded g t m) t₁ moves)
    (h : System.run u cfg t₁ moves = some t₂)
    (hstep : System.step u cfg t₂ (.run g n) = some t₃) :
    (∃ p, t₁.threads g = left p ∧ p.Until ChecksRoom Op.KeepsRegistry) ∧
    t₃.shared.svc.rooms = t₂.shared.svc.rooms ∧
    ∀ sid enter, t₂.threads g = some (.op (.service (.getOrCreateRoom sid)) enter) →
      (t₂.shared.svc.getRoomByID sid).isSome = true := by
  have hstart : ∃ p, t₁.threads g = left p ∧ p.Until ChecksRoom Op.KeepsRegistry := by
    rcases step_launch hlaunch with ⟨s, hl, rfl⟩ | ⟨s, g', p, hl, -, rfl⟩
    · obtain ⟨p, hp, -⟩ := Launch.rejoins_checks hm (Launch.launch_eq_some hl).2
      simp at hp
    · obtain ⟨p', hp, hchecks⟩ := Launch.rejoins_checks hm (Launch.launch_eq_some hl).2
      obtain ⟨rfl, rfl⟩ := Prod.mk.inj (Option.some.inj hp)
      exact ⟨p, Function.update_self .., hchecks⟩
  refine ⟨hstart, ?_⟩
  obtain ⟨p, hp, hchecks⟩ := hstart
  obtain ⟨o, k, s, a, hg, hx, rfl⟩ := step_run hstep
  have hrejoin : Rejoining t₂.shared.svc (.op o k) := by
    refine rejoining_run (fun p' hp' => ?_) hguard h hg
    obtain ⟨rfl, -⟩ := left_eq_some (hp.symm.trans hp')
    exact Or.inl hchecks
  refine ⟨(hrejoin.step hx).1, fun sid enter hget => ?_⟩
  rw [hg] at hget
  rw [Option.some.inj hget] at hrejoin
  rcases hrejoin with (⟨_, _, _, hcheck, -⟩ | ⟨hkeeps, -⟩) | ⟨sid', enter', heq, hreg, -⟩
  · simp at hcheck
  · simp [Op.KeepsRegistry, registering] at hkeeps
  · obtain ⟨hop, -⟩ := Prog.op.inj heq
    obtain rfl := ServiceOp.getOrCreateRoom.inj (Op.service.inj hop)
    exact hreg

/-- A second stream rejoins `s1`. -/
def rejoinS1 : Launch :=
  .send 1 { action := some (.join { sessionId := "s1", mustExist := true }) }

theorem mustExist_createsNothing_rejoin : ∃ t₀ t₁ t₂ t₃,
    System.run .unary (fun _ => {}) (System.init 10) joinS1Stream = some t₀ ∧
    System.step .unary (fun _ => {}) t₀ (.launch rejoinS1) = some t₁ ∧
    System.run .unary (fun _ => {}) t₁ (List.replicate 2 (.run (.send 1) 0)) = some t₂ ∧
    System.step .unary (fun _ => {}) t₂ (.run (.send 1) 0) = some t₃ ∧
    t₂.shared.svc.getRoomByID "s1" = some 0 ∧ t₃.shared.svc.rooms = t₂.shared.svc.rooms := by
  have hrun : (System.run .unary (fun _ => {}) (System.init 10) joinS1Stream).any (fun t₀ =>
      (System.step .unary (fun _ => {}) t₀ (.launch rejoinS1)).any fun t₁ =>
      (Machine.execIf (System.step .unary fun _ => {})
        (fun t m => (t.threads (.send 1)).isSome = true ∧ ¬ RemovesNeeded (.send 1) t m) t₁
        (List.replicate 2 (.run (.send 1) 0))).any fun t₂ =>
      (System.step .unary (fun _ => {}) t₂ (.run (.send 1) 0)).any fun _ =>
        t₂.shared.svc.getRoomByID "s1" = some 0) = true := by
    decide +kernel
  obtain ⟨t₀, h₀, hrun⟩ := (Option.any_eq_true _ _).mp hrun
  obtain ⟨t₁, h₁, hrun⟩ := (Option.any_eq_true _ _).mp hrun
  obtain ⟨t₂, h₂, hrun⟩ := (Option.any_eq_true _ _).mp hrun
  obtain ⟨t₃, h₃, hreg⟩ := (Option.any_eq_true _ _).mp hrun
  obtain ⟨hguard, h₂⟩ := Machine.execIf_eq_some h₂
  have hm : rejoinS1.Rejoins (.send 1) := ⟨rfl, rfl⟩
  exact ⟨t₀, t₁, t₂, t₃, h₀, h₁, h₂, h₃, of_decide_eq_true hreg,
    (mustExist_createsNothing hm h₁ hguard h₂ h₃).2.1⟩

/-- The rejoin has found the room when its only client leaves. -/
def lastLeaveDuringRejoin : List Move :=
  List.flatten [
    joinS1Stream,
    .launch rejoinS1 :: List.replicate 2 (.run (.send 1) 0),
    .launch (.send 0 { action := some (.leave ⟨"bye"⟩) }) :: List.replicate 12 (.run (.send 0) 0)]

/-- Its next step creates the room anew. -/
theorem rejoinRecreatesRoom : ∃ t t',
    System.run .unary (fun _ => {}) (System.init 10) lastLeaveDuringRejoin = some t ∧
    System.step .unary (fun _ => {}) t (.run (.send 1) 0) = some t' ∧
    t.shared.svc.getRoomByID "s1" = none ∧ t'.shared.svc.getRoomByID "s1" = some 1 := by
  have hrun : (System.run .unary (fun _ => {}) (System.init 10) lastLeaveDuringRejoin).any (fun t =>
      (System.step .unary (fun _ => {}) t (.run (.send 1) 0)).any fun t' =>
        t.shared.svc.getRoomByID "s1" = none ∧ t'.shared.svc.getRoomByID "s1" = some 1) = true := by
    decide +kernel
  obtain ⟨t, ht, hrun⟩ := (Option.any_eq_true _ _).mp hrun
  obtain ⟨t', ht', hstate⟩ := (Option.any_eq_true _ _).mp hrun
  exact ⟨t, t', ht, ht', of_decide_eq_true hstate⟩

end MassRelay

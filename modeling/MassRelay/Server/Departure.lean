import MassRelay.Server.Membership

/-!
# MassRelay.Server.Departure

The departure of a client, announced once.

A client can leave by its own `LeaveRoom` and by the cleanups of its connection, and each
of these runs `handleLeave` in a goroutine of its own. `handleLeave` finds the room in one
section and removes the client in another, and does not look at whether there was still a
client to remove: two leaves that both found the room announce the departure twice
(`departureAnnouncedTwice`). What it takes is that each `RemoveClient` of the client finds it
(`RemovesMember`). Then one leave gets through, and it makes at most one transfer of
ownership and tells everyone at most once (`departure_announcedOnce`).

How far a goroutine is with a leave of `x` is the state of a discipline (`departure x`).
-/

namespace MassRelay

open Threads CollabService

/-- The event tells of client `x` leaving. -/
def tellsLeft (x : String) (e : CollabEvent) : Bool :=
  match e.event with
  | .peerLeft pl => pl.clientId = x
  | _ => false

/-- What a goroutine is at: an action of a client or none, or a leave of `x` that has
removed it. That one has yet to tell the clients in `targets`, which its broadcast ranges
over, or is at it. -/
inductive Leaving
  | other (client : Option String)
  | removed (transferred : Bool) (targets : List String)
  | telling (targets : List String)

namespace Leaving

/-- The client whose action it is. -/
def client? (x : String) : Leaving → Option String
  | .other client => client
  | .removed _ _ | .telling _ => some x

end Leaving

/-- How goroutines go about a departure of `x`: only a leave of `x` that removed it, once,
transfers ownership for it and tells of it, each at most once. -/
def departure (x : String) : Discipline ServiceOp ServiceOp.Res Leaving where
  may
    | .other client, .removeClient _ c => client = some c
    | .other client, .transferOwner _ _ => client ≠ some x
    | .other _, .beginDeliver _ e => tellsLeft x e = false
    | .other _, _ => True
    | .removed transferred _, .transferOwner _ _ => transferred = false
    | .removed _ targets, .beginDeliver c e => tellsLeft x e = true → c ∈ targets
    | .telling targets, .beginDeliver c _ => c ∈ targets
    | .telling _, .transferOwner _ _ | .telling _, .rlock _ _ => False
    | _, .removeClient _ _ | _, .findRoomForClient _ => False
    | _, _ => True
  answer
    | .rlock _ _, r => r.1.Nodup
    | .peerJoinedEvent _ _, e | .ownerChangedEvent _ _ _, e => tellsLeft x e = false
    | _, _ => True
  next
    | _, .handled, _ => .other none
    | .other _, .findRoomForClient c, r => .other (r.map fun _ => c)
    | .other client, .removeClient _ c, _ => if c = x then .removed false [] else .other client
    | .removed _ targets, .transferOwner _ _, _ => .removed true targets
    | .removed transferred _, .rlock _ _, r => .removed transferred r.1
    | .removed transferred targets, .beginDeliver c e, _ =>
      if tellsLeft x e then .telling (targets.erase c) else .removed transferred targets
    | .telling targets, .beginDeliver c _, _ => .telling (targets.erase c)
    | q, _, _ => q

variable {x : String} {client : Option String} {α : Type}

/-! ### The calls of the service -/

/-- A step that says nothing of a departure of `x`, whatever action it is part of. -/
def quiet (x : String) : ServiceOp → Bool
  | .findRoomForClient _ | .handled | .removeClient _ _ | .transferOwner _ _ => false
  | .beginDeliver _ e => !tellsLeft x e
  | _ => true

theorem quiet_may {o : ServiceOp} (h : quiet x o = true) : (departure x).may (.other client) o := by
  cases o with
  | beginDeliver c e =>
    have he : tellsLeft x e = false := by simpa [quiet] using h
    exact he
  | findRoomForClient _ | handled | removeClient _ _ | transferOwner _ _ => simp [quiet] at h
  | _ => trivial

theorem quiet_next {o : ServiceOp} (h : quiet x o = true) (r : o.Res) :
    (departure x).next (.other client) o r = .other client := by
  cases o <;> first | rfl | simp [quiet] at h

namespace Call

theorem perform_quiet {o : ServiceOp} (h : quiet x o = true) :
    (perform o).Stays (departure x) (.other client) :=
  .perform (quiet_may h) (quiet_next h)

theorem error_quiet (code message : String) :
    (error code message).Stays (departure x) (.other client) :=
  .bind (perform_quiet rfl) fun _ => .ret _

theorem deliverEach_quiet {targets : List (String × CollabEvent)}
    (h : ∀ target ∈ targets, tellsLeft x target.2 = false) :
    (deliverEach targets).Stays (departure x) (.other client) := by
  induction targets with
  | nil => exact .ret _
  | cons target targets ih =>
    refine .bind (.bind (perform_quiet ?_) fun call => ?_) fun _ =>
      ih fun target' ht => h target' (List.mem_cons_of_mem _ ht)
    · simp [quiet, h target List.mem_cons_self]
    · cases call with
      | none => exact .ret _
      | some call =>
        refine .bind (perform_quiet rfl) fun queued => ?_
        split
        · exact .ret _
        · exact perform_quiet rfl

theorem broadcast_quiet {r : RoomRef} {range : Range} {build : String → CollabEvent}
    (h : ∀ c, tellsLeft x (build c) = false) :
    (broadcast r range build).Stays (departure x) (.other client) := by
  refine .bind (perform_quiet rfl) fun ranged =>
    .bind (deliverEach_quiet ?_) fun _ => .bind (perform_quiet rfl) fun _ => .ret _
  intro target htarget
  obtain ⟨c, -, rfl⟩ := List.mem_map.mp htarget
  exact h c

theorem accept_quiet (ctx : Ctx) (join : JoinRoom) (sid : String) (r : RoomRef) (encrypted : Bool) :
    (accept ctx join sid r encrypted).Stays (departure x) (.other client) := by
  refine .bind (perform_quiet rfl) fun _ => .bind (perform_quiet rfl) fun _ =>
    .bind (perform_quiet rfl) fun _ => .bind (perform_quiet rfl) fun _ => ?_
  refine .op (quiet_may rfl) (quiet_next rfl) fun e he =>
    .bind (broadcast_quiet fun _ => he) fun _ => ?_
  exact .bind (perform_quiet rfl) fun _ => .bind (perform_quiet rfl) fun _ => .ret _

theorem enterRoom_quiet (ctx : Ctx) (join : JoinRoom) (sid : String) (r : RoomRef) :
    (enterRoom ctx join sid r).Stays (departure x) (.other client) := by
  have hcheck : (checkEncryption ctx join sid r).Stays (departure x) (.other client) := by
    refine .bind (.onlyIf (perform_quiet rfl)) fun _ =>
      .bind (perform_quiet rfl) fun encrypted => ?_
    split
    · exact error_quiet _ _
    · exact accept_quiet ctx join sid r encrypted
  refine .bind (perform_quiet rfl) fun full => ?_
  split
  · exact .bind (perform_quiet rfl) fun _ => error_quiet _ _
  · split
    · refine .bind (perform_quiet rfl) fun elsewhere => ?_
      split
      · exact .ret _
      · exact hcheck
    · exact hcheck

theorem handleJoin_quiet (ctx : Ctx) (join : JoinRoom) :
    (handleJoin ctx join).Stays (departure x) (.other client) := by
  have hresolve : (resolveSession join).Stays (departure x) (.other client) := by
    unfold resolveSession
    split
    · exact .ret _
    · split
      · refine .bind (perform_quiet rfl) fun existing => ?_
        split
        · exact .ret _
        · exact perform_quiet rfl
      · exact perform_quiet rfl
  have hlacks : ∀ sid, (lacksRoom join sid).Stays (departure x) (.other client) := by
    intro sid
    unfold lacksRoom
    split
    · exact .bind (perform_quiet rfl) fun _ => .ret _
    · exact .ret _
  unfold handleJoin
  split
  · exact error_quiet _ _
  · refine .bind hresolve fun sid => .bind (.onlyIf (perform_quiet rfl)) fun _ =>
      .bind (hlacks sid) fun lost => ?_
    split
    · exact error_quiet _ _
    · exact .bind (perform_quiet rfl) fun r => enterRoom_quiet ctx join sid r

/-- Looking for the room of client `c` begins an action of it. -/
theorem find_follows {c : String} {f : Option RoomRef → Call α} {post : α → Leaving → Prop}
    (hnone : (f none).Follows (departure x) post (.other none))
    (hsome : ∀ r, (f (some r)).Follows (departure x) post (.other (some c))) :
    (perform (.findRoomForClient c) >>= f).Follows (departure x) post (.other none) := by
  refine ⟨trivial, fun room _ => ?_⟩
  cases room with
  | none => exact hnone
  | some r => exact hsome r

theorem handlePresence_follows (c : String) (presence : PresenceUpdate) :
    (handlePresence c presence).Follows (departure x) (fun _ _ => True) (.other none) := by
  refine find_follows trivial fun r => ?_
  refine Prog.Stays.then (perform_quiet rfl) fun _ => Prog.Stays.then (broadcast_quiet fun _ => rfl)
    fun _ => trivial

theorem handleBroadcast_follows (c : String) (action : Action) :
    (handleBroadcast c action).Follows (departure x) (fun _ _ => True) (.other none) := by
  have hquiet : ∀ {event}, relayed action = some event → ∀ id,
      tellsLeft x { eventId := id, fromClientId := c, event } = false := by
    intro event h id
    cases action <;> simp only [relayed, Option.some.injEq, reduceCtorEq] at h <;>
      (subst h; rfl)
  have hnote : ∀ r, (noteRelayed r action).Stays (departure x) (.other (some c)) := by
    intro r
    unfold noteRelayed
    split
    · split
      · exact perform_quiet rfl
      · exact .ret _
    · exact perform_quiet rfl
    · exact .ret _
  refine find_follows trivial fun r => Prog.Stays.then (perform_quiet rfl) fun id => ?_
  split
  · trivial
  · rename_i event hevent
    refine (hnote r).then fun _ => ?_
    unfold relay
    split
    · exact Prog.Stays.then (broadcast_quiet fun _ => hquiet hevent id) fun _ =>
        Prog.Stays.then (perform_quiet rfl) fun _ => trivial
    · refine Prog.Stays.then (broadcast_quiet fun _ => rfl) fun missing =>
        Prog.Stays.then (perform_quiet rfl) fun _ => ?_
      split
      · trivial
      · exact Prog.Stays.then (perform_quiet rfl) fun _ => trivial

/-! Leaves of other clients. -/

theorem announceLeft_other {c : String} (hc : c ≠ x) (reason : String) (r : RoomRef) (count : Nat) :
    (announceLeft c reason r count).Stays (departure x) (.other client) :=
  .bind (perform_quiet rfl) fun _ =>
  .bind (broadcast_quiet fun _ => decide_eq_false hc) fun _ =>
  .bind (.onlyIf (perform_quiet rfl)) fun _ => .bind (perform_quiet rfl) fun _ => .ret _

theorem endRoom_other (c : String) (r : RoomRef) :
    (endRoom c r).Stays (departure x) (.other client) :=
  .bind (perform_quiet rfl) fun _ => .bind (broadcast_quiet fun _ => rfl) fun _ =>
  .bind (perform_quiet rfl) fun _ => .bind (perform_quiet rfl) fun _ =>
  .bind (perform_quiet rfl) fun _ => .ret _

theorem leaveOwner_other {c : String} (hc : c ≠ x) (reason : String) (r : RoomRef)
    (browserId : String) (count : Nat) :
    (leaveOwner c reason r browserId count).Stays (departure x) (.other (some c)) := by
  have hfind : (findSuccessor r browserId c).Stays (departure x) (.other (some c)) := by
    unfold findSuccessor
    split
    · exact perform_quiet rfl
    · exact .ret _
  refine .bind hfind fun successor => ?_
  cases successor with
  | none => exact endRoom_other c r
  | some successor =>
    refine .bind (.perform (by simpa [departure] using hc) fun _ => rfl) fun _ =>
      .bind (perform_quiet rfl) fun _ => ?_
    exact .op trivial (fun _ => rfl) fun e he => .bind (broadcast_quiet fun _ => he) fun _ =>
      announceLeft_other hc reason r count

/-! The leave of `x` that removed it. -/

section Own

variable {transferred : Bool} {targets : List String}

/-- A step in a leave of `x` that leaves the room and the targets of its broadcast. -/
def settled (x : String) : ServiceOp → Bool
  | .rlock _ _ => false
  | o => quiet x o

theorem perform_settled {o : ServiceOp} (h : settled x o = true) :
    (perform o).Stays (departure x) (.removed transferred targets) := by
  cases o with
  | beginDeliver c e =>
    have he : tellsLeft x e = false := by simpa [settled, quiet] using h
    refine .perform (fun htells => ?_) fun r => ?_
    · simp [he] at htells
    · simp [departure, he]
  | rlock _ _ | findRoomForClient _ | handled | removeClient _ _ | transferOwner _ _ =>
    simp [settled, quiet] at h
  | _ => exact .perform trivial fun _ => rfl

/-- A step that may come anywhere and leads nowhere. -/
def passive : ServiceOp → Bool
  | .uuid | .removeRoom _ | .runlock _ | .put .. | .markSlow .. => true
  | _ => false

theorem perform_passive {o : ServiceOp} {q : Leaving} (h : passive o = true) :
    (perform o).Stays (departure x) q := by
  cases o with
  | uuid | removeRoom _ | runlock _ | put _ _ _ | markSlow _ _ =>
    cases q <;> exact .perform trivial fun _ => rfl
  | _ => simp [passive] at h

theorem deliver_follows {c : String} {e : CollabEvent} {q : Leaving}
    (hmay : (departure x).may q (.beginDeliver c e)) :
    (deliver c e).Follows (departure x)
      (fun _ q' => q' = (departure x).next q (.beginDeliver c e) none) q := by
  refine .op hmay fun call _ => ?_
  have hnext : (departure x).next q (.beginDeliver c e) call =
      (departure x).next q (.beginDeliver c e) none := by
    cases q <;> rfl
  rw [hnext]
  cases call with
  | none => rfl
  | some call =>
    refine Prog.Stays.bind (perform_passive rfl) fun queued => ?_
    split
    · exact .ret _
    · exact perform_passive rfl

/-- Telling those of its targets that are still to be told. -/
theorem deliverEach_telling {cs : List String} {e : CollabEvent} (hcs : cs.Nodup)
    (hsub : cs ⊆ targets) :
    (deliverEach (cs.map (·, e))).Follows (departure x) (fun _ _ => True) (.telling targets) := by
  induction cs generalizing targets with
  | nil => trivial
  | cons c cs ih =>
    obtain ⟨hc, hcs⟩ := List.nodup_cons.mp hcs
    refine .bind (.mono ?_ (deliver_follows (hsub List.mem_cons_self)))
    rintro _ q rfl
    refine ih hcs fun c' hc' => ?_
    have hne : c' ≠ c := by
      rintro rfl
      exact hc hc'
    exact (List.mem_erase_of_ne hne).mpr (hsub (List.mem_cons_of_mem _ hc'))

/-- A broadcast that tells of the departure. -/
theorem broadcast_telling {r : RoomRef} {e : CollabEvent} (he : tellsLeft x e = true) :
    (broadcast r .all fun _ => e).Follows (departure x) (fun _ _ => True)
      (.removed transferred targets) := by
  refine .op trivial fun ranged hnodup => ?_
  obtain ⟨cs, missing⟩ := ranged
  suffices h : (deliverEach (cs.map (·, e))).Follows (departure x) (fun _ _ => True)
      (.removed transferred cs) from
    .bind (h.mono fun _ _ _ => Prog.Stays.then (perform_passive rfl) fun _ => trivial)
  cases cs with
  | nil => trivial
  | cons c cs =>
    obtain ⟨hc, hcs⟩ := List.nodup_cons.mp (hnodup : (c :: cs).Nodup)
    refine .bind (.mono ?_ (deliver_follows fun _ => List.mem_cons_self))
    rintro _ q rfl
    simp only [departure, he, if_true]
    refine deliverEach_telling hcs fun c' hc' => ?_
    rw [List.erase_cons_head]
    exact hc'

/-- One that tells of something else. -/
theorem broadcast_settled {r : RoomRef} {e : CollabEvent} (he : tellsLeft x e = false) :
    (broadcast r .all fun _ => e).Follows (departure x)
      (fun _ q => ∃ targets, q = .removed transferred targets) (.removed transferred targets) := by
  refine .op trivial fun ranged _ => ?_
  obtain ⟨cs, missing⟩ := ranged
  have hdeliver : ∀ cs' : List String, (deliverEach (cs'.map (·, e))).Stays (departure x)
      (.removed transferred cs) := by
    intro cs'
    induction cs' with
    | nil => exact .ret _
    | cons c cs' ih =>
      refine .bind (.mono ?_ (deliver_follows (by simp [departure, he]))) fun _ => ih
      rintro _ q rfl
      simp [departure, he]
  exact (hdeliver cs).then fun _ => Prog.Stays.then (perform_passive rfl) fun _ => ⟨cs, rfl⟩

theorem announceLeft_own (reason : String) (r : RoomRef) (count : Nat) :
    (announceLeft x reason r count).Follows (departure x) (fun _ _ => True)
      (.removed transferred targets) := by
  refine Prog.Stays.then (perform_passive rfl) fun id => ?_
  have htells : tellsLeft x (peerLeftEvent id x reason count) = true := decide_eq_true rfl
  refine .bind ((broadcast_telling htells).mono fun _ q _ => ?_)
  exact Prog.Stays.then (.onlyIf (perform_passive rfl)) fun _ =>
    Prog.Stays.then (perform_passive rfl) fun _ => trivial

theorem endRoom_own (r : RoomRef) :
    (endRoom x r).Follows (departure x) (fun _ _ => True) (.removed transferred targets) := by
  refine Prog.Stays.then (perform_passive rfl) fun id => ?_
  refine .bind ((broadcast_settled rfl).mono ?_)
  rintro _ q ⟨targets', rfl⟩
  exact Prog.Stays.then (perform_settled rfl) fun _ =>
    Prog.Stays.then (perform_passive rfl) fun _ =>
    Prog.Stays.then (perform_passive rfl) fun _ => trivial

theorem leaveOwner_own (reason : String) (r : RoomRef) (browserId : String) (count : Nat) :
    (leaveOwner x reason r browserId count).Follows (departure x) (fun _ _ => True)
      (.removed false targets) := by
  have hfind : (findSuccessor r browserId x).Stays (departure x) (.removed false targets) := by
    unfold findSuccessor
    split
    · exact perform_settled rfl
    · exact .ret _
  refine hfind.then fun successor => ?_
  cases successor with
  | none => exact endRoom_own r
  | some successor =>
    refine .op rfl fun _ _ => Prog.Stays.then (perform_passive rfl) fun id => ?_
    refine .op trivial fun e he => .bind ((broadcast_settled he).mono ?_)
    rintro _ q ⟨targets', rfl⟩
    exact announceLeft_own reason r count

end Own

theorem handleLeave_follows (c : String) (leave : LeaveRoom) :
    (handleLeave c leave).Follows (departure x) (fun _ _ => True) (.other none) := by
  refine find_follows trivial fun r => Prog.Stays.then (perform_quiet rfl) fun flags => ?_
  obtain ⟨isOwner, browserId⟩ := flags
  refine .op rfl fun _ _ => ?_
  by_cases hc : c = x
  · subst hc
    simp only [departure, if_true]
    refine Prog.Stays.then (perform_settled rfl) fun count => ?_
    split
    · exact leaveOwner_own _ r browserId count
    · exact announceLeft_own _ r count
  · simp only [departure, hc, if_false]
    refine Prog.Stays.then (perform_quiet rfl) fun count => ?_
    split
    · exact (leaveOwner_other hc _ r browserId count).mono fun _ _ _ => trivial
    · exact (announceLeft_other hc _ r count).mono fun _ _ _ => trivial

/-- A call of `HandleAction` begins and ends outside every action. -/
theorem handleAction_stays (ctx : Ctx) (a : CollabAction) :
    (handleAction ctx a).Stays (departure x) (.other none) := by
  have hroute : (route ctx a).Follows (departure x) (fun _ _ => True) (.other none) := by
    unfold route
    split
    · exact (handleJoin_quiet ctx _).mono fun _ _ _ => trivial
    · exact handleLeave_follows a.clientId _
    · exact handlePresence_follows a.clientId _
    · exact handleBroadcast_follows a.clientId _
    · trivial
  refine Prog.Follows.bind (hroute.mono fun answer q _ => ?_)
  refine .op ?_ fun _ _ => ?_
  · cases q <;> trivial
  · cases q <;> rfl

theorem getClient_stays (sid c : String) :
    (getClient sid c).Stays (departure x) (.other none) := by
  refine .bind (perform_quiet rfl) fun room => ?_
  cases room with
  | none => exact .ret _
  | some r => exact perform_quiet rfl

theorem deliverAppMessage_stays (sid c : String) (msg : AppMessage) :
    (deliverAppMessage sid c msg).Stays (departure x) (.other none) := by
  refine .bind (perform_quiet rfl) fun room => ?_
  cases room with
  | none => exact .ret _
  | some r =>
    refine .bind (perform_quiet rfl) fun id => ?_
    split
    · exact .bind (broadcast_quiet fun _ => rfl) fun _ => .bind (perform_quiet rfl) fun _ => .ret _
    · exact .bind (broadcast_quiet fun _ => rfl) fun _ => .bind (perform_quiet rfl) fun _ => .ret _

end Call

/-! ### One departure -/

variable {u : UuidSource} {cfg : Nat → StreamConfig} {y : String}

theorem departure_callsStay : CallsStay (departure x) (.other none) where
  uuid := Call.perform_quiet rfl
  getClient := Call.getClient_stays
  handleAction := Call.handleAction_stays
  deliverAppMessage := Call.deliverAppMessage_stays

/-- The step transfers ownership for the departure of `x`. -/
def transfers (x : String) (q : Leaving) : ServiceOp → Bool
  | .transferOwner _ _ => q.client? x = some x
  | _ => false

/-- The step tells `y` of it. -/
def tells (x y : String) : ServiceOp → Bool
  | .beginDeliver c e => c = y && tellsLeft x e
  | _ => false

/-- What the leave that removed `x` has done so far: `m` transfers, and `n` times it told
`y`. -/
def Leaving.Spent (y : String) (m n : Nat) : Leaving → Prop
  | .other _ => m ≤ 1 ∧ n ≤ 1
  | .removed transferred targets => m = transferred.toNat ∧ n = 0 ∧ targets.Nodup
  | .telling targets => m ≤ 1 ∧ n ≤ 1 ∧ targets.Nodup ∧ (y ∈ targets → n = 0)

/-- Outside of such a leave nothing is done for the departure. -/
theorem other_next {o : ServiceOp} {a : o.Res} (hmay : (departure x).may (.other client) o)
    (ho : ∀ r, o ≠ .removeClient r x) :
    (∃ client', (departure x).next (.other client) o a = .other client') ∧
      transfers x (.other client) o = false ∧ tells x y o = false := by
  cases o with
  | removeClient r c =>
    have hc : c ≠ x := by
      rintro rfl
      exact ho r rfl
    exact ⟨⟨client, if_neg hc⟩, rfl, rfl⟩
  | findRoomForClient c => exact ⟨⟨_, rfl⟩, rfl, rfl⟩
  | transferOwner r c => exact ⟨⟨_, rfl⟩, decide_eq_false hmay, rfl⟩
  | beginDeliver c e =>
    have he : tellsLeft x e = false := hmay
    exact ⟨⟨_, rfl⟩, rfl, by simp [tells, he]⟩
  | _ => exact ⟨⟨_, rfl⟩, rfl, rfl⟩

theorem Leaving.Spent.next {q : Leaving} {m n : Nat} {o : ServiceOp} {a : o.Res}
    (hq : q.Spent y m n) (hmay : (departure x).may q o) (hanswer : (departure x).answer o a)
    (ho : ∀ r, o ≠ .removeClient r x) :
    ((departure x).next q o a).Spent y (m + (transfers x q o).toNat) (n + (tells x y o).toNat) := by
  cases q with
  | other client =>
    obtain ⟨⟨client', hnext⟩, htransfers, htells⟩ := other_next (y := y) (a := a) hmay ho
    rw [hnext, htransfers, htells]
    exact hq
  | removed transferred targets =>
    obtain ⟨rfl, rfl, hnodup⟩ := hq
    cases o with
    | transferOwner r c =>
      obtain rfl : transferred = false := hmay
      exact ⟨by simp [transfers, Leaving.client?], rfl, hnodup⟩
    | rlock r range => exact ⟨rfl, rfl, hanswer⟩
    | beginDeliver c e =>
      -- the first event that tells of the departure ends the time for a transfer
      by_cases he : tellsLeft x e = true
      · simp only [departure, he, if_true]
        refine ⟨Bool.toNat_le _, ?_, hnodup.erase c, fun hy => ?_⟩
        · simpa using Bool.toNat_le _
        · have hne : c ≠ y := by
            rintro rfl
            exact hnodup.not_mem_erase hy
          simp [tells, hne]
      · simp only [departure, he]
        exact ⟨rfl, by simp [tells, he], hnodup⟩
    | handled => exact ⟨Bool.toNat_le _, Nat.zero_le _⟩
    | removeClient _ _ | findRoomForClient _ => exact hmay.elim
    | _ => exact ⟨rfl, rfl, hnodup⟩
  | telling targets =>
    obtain ⟨hm, hn, hnodup, hy⟩ := hq
    cases o with
    | beginDeliver c e =>
      refine ⟨hm, ?_, hnodup.erase c, fun hy' => ?_⟩
      · by_cases hc : c = y
        · subst hc
          rw [hy hmay, Nat.zero_add]
          exact Bool.toNat_le _
        · simpa [tells, hc] using hn
      · have hne : c ≠ y := by
          rintro rfl
          exact hnodup.not_mem_erase hy'
        simpa [tells, hne] using hy (List.mem_of_mem_erase hy')
    | handled => exact ⟨hm, hn⟩
    | transferOwner _ _ | rlock _ _ | removeClient _ _ | findRoomForClient _ => exact hmay.elim
    | _ => exact ⟨hm, hn, hnodup, hy⟩

/-- Client `x` was made and is in no room, and no end of its session took it out. -/
structure HasLeft (x : String) (s : CollabService) : Prop where
  made : x ≠ "" ∧ (s.clientAt x).info.clientId = x
  out : ∀ r, x ∉ (s.roomAt r).clients
  opened : (s.clientAt x).sendCh.closed = false

/-- How often `y` was told that `x` left. -/
def timesTold (x y : String) (s : CollabService) : Nat :=
  s.sent.countP fun d => d.client = y && tellsLeft x d.event

theorem timesTold_apply {s s' : CollabService} {g : Goroutine} {n : Nat} {o : ServiceOp} {a : o.Res}
    (h : o.apply u g n s = some (s', a)) :
    timesTold x y s' = timesTold x y s + (tells x y o).toNat := by
  rw [timesTold, timesTold, apply_sent h, List.countP_append]
  cases o with
  | beginDeliver c e =>
    have hcount : ∀ b : Bool, (if b = true then 1 else 0) = b.toNat := by decide
    simp [sends, tells, List.countP_singleton, ← hcount]
  | _ => rfl

section Step

variable {s s' : CollabService} {g : Goroutine} {n : Nat} {o : ServiceOp} {a : o.Res}

theorem HasLeft.apply (hs : HasLeft x s) (hissued : Issued u s x)
    (h : o.apply u g n s = some (s', a)) : HasLeft x s' := by
  have hgrow := (apply_effect h).grow
  refine ⟨⟨hs.made.1, (hgrow.client hissued).clientId.trans hs.made.2⟩,
    fun r => hgrow.gone hissued (hs.out r), ?_⟩
  rcases (apply_effect h).closed x with hclosed | ⟨rfl, -⟩ | ⟨r, -, hc, -⟩
  · exact hclosed.trans hs.opened
  · exact absurd hissued uuid_not_issued
  · exact absurd hc (hs.out r)

/-- `RemoveClient` of a client in the room. -/
theorem HasLeft.removeClient {r : RoomRef} {a : Unit} (hs : Housed u s)
    (hx : x ∈ (s.roomAt r).clients)
    (h : (ServiceOp.removeClient r x).apply u g n s = some (s', a)) : HasLeft x s' := by
  obtain ⟨rfl, -⟩ := Prod.mk.inj (lock_eq_some h).2
  obtain ⟨k, -, rfl⟩ := hs.issued hx
  refine ⟨⟨u.new_ne_empty k, hs.named hx⟩, fun r' hx' => ?_, hs.opened hx⟩
  by_cases hr : r' = r
  · subst hr
    have hmem : u.new k ∈ (s.roomAt r').clients.erase (u.new k) := by
      simpa [removeLeft, CollabService.removeClient] using hx'
    exact (hs.nodup r').not_mem_erase hmem
  · have hmem : u.new k ∈ (s.roomAt r').clients := by
      simpa [removeLeft, CollabService.removeClient, hr] using hx'
    exact hr (hs.unique hmem hx)

/-- Nobody leaves by any other step. -/
theorem hasLeft_of_apply (hmade : (x ≠ "" ∧ (s.clientAt x).info.clientId = x) → Issued u s x)
    (hconfined : ∀ {r}, x ∈ (s.roomAt r).clients → r < s.nextRoom)
    (ho : ∀ r, o ≠ .removeClient r x) (h : o.apply u g n s = some (s', a))
    (hs' : HasLeft x s') : HasLeft x s := by
  rcases (apply_effect h).client x with ⟨rfl, r, ctx, join, sid, peers, rfl, -, rfl⟩ | ⟨hclient, -⟩
  · refine absurd ?_ (hs'.out r)
    simp [addJoined, addClient, newClient, modifyRoom]
  · have hold : x ≠ "" ∧ (s.clientAt x).info.clientId = x :=
      ⟨hs'.made.1, hclient.clientId.symm.trans hs'.made.2⟩
    have hopened : (s.clientAt x).sendCh.closed = false := by
      rcases (apply_effect h).closed x with hclosed | ⟨rfl, -⟩ | ⟨r, -, -, hclosed⟩
      · rw [← hclosed]
        exact hs'.opened
      · exact absurd (hmade hold) uuid_not_issued
      · exact absurd (hs'.opened.symm.trans hclosed) (by simp)
    -- were it in a room before, it would be there still: only three steps change who is in one
    refine ⟨hold, fun r hx => ?_, hopened⟩
    rcases apply_clients h r with hclients | ⟨rfl, -⟩
    · have hgone := hs'.out r
      rw [hclients] at hgone
      cases o with
      | addClient r' ctx join sid peers =>
        simp only [clientsAfter] at hgone
        split at hgone
        · exact hgone (List.mem_insert_of_mem hx)
        · exact hgone hx
      | removeClient r' c =>
        simp only [clientsAfter] at hgone
        split at hgone
        · refine hgone ((List.mem_erase_of_ne ?_).mpr hx)
          rintro rfl
          exact ho r' rfl
        · exact hgone hx
      | closeAllClients r' =>
        simp only [clientsAfter] at hgone
        split at hgone
        · rename_i hr
          subst hr
          obtain ⟨rfl, -⟩ := Prod.mk.inj (lock_eq_some h).2
          exact absurd (hs'.opened.symm.trans (closeAllClients_closed hx)) (by simp)
        · exact hgone hx
      | _ => exact hgone hx
    · exact absurd (hconfined hx) (lt_irrefl _)

end Step

/-! ### Every run -/

/-- A `RemoveClient` of `x` finds `x` in the room. -/
def RemovesMember (x : String) (_ : Goroutine) (o : ServiceOp) (s : CollabService) : Prop :=
  match o with
  | .removeClient r c => c = x → x ∈ (s.roomAt r).clients
  | _ => True

instance (x : String) (g : Goroutine) (o : ServiceOp) (s : CollabService) :
    Decidable (RemovesMember x g o s) :=
  decidable_of_iff ((match o with
    | .removeClient r c => decide (c = x → x ∈ (s.roomAt r).clients)
    | _ => true) = true) (by
      unfold RemovesMember
      split
      · exact decide_eq_true_iff
      · exact iff_of_true rfl trivial)

/-- The move is a `RemoveClient` of `x`, with the `OnPeerLeft` after it. -/
def countsLeft (x : String) (t : System) : Move → Bool
  | .run g _ =>
    match t.threads g with
    | some (.op (.service (.removeClient _ c)) _) => c = x
    | _ => false
  | .launch _ => false

/-- The move transfers ownership in a leave of `x`. -/
def transfersFor (x : String) (t : System) : Move → Bool
  | .run g _ =>
    match t.threads g with
    | some (.op (.service (.transferOwner _ _)) _) =>
      (t.shared.svc.acting g).map Prod.fst = some x
    | _ => false
  | .launch _ => false

/-- What has been done for the departure of `x`: nothing before it, and afterwards what one
goroutine did. -/
inductive Departed (x y : String) (s : CollabService) (q : Goroutine → Leaving) (left : Nat)
    (transferred : Nat) : Prop
  | notYet (hleft : ¬ HasLeft x s) (hcount : left = 0) (htransferred : transferred = 0)
      (htold : timesTold x y s = 0) (hq : ∀ g, ∃ client, q g = .other client)
  | once (g : Goroutine) (hleft : HasLeft x s) (hcount : left = 1)
      (hspent : (q g).Spent y transferred (timesTold x y s))
      (hq : ∀ g', g' ≠ g → ∃ client, q g' = .other client)

/-- The same, with what goroutines are at agreeing with the service. -/
structure Departing (u : UuidSource) (x y : String) (s : CollabService) (q : Goroutine → Leaving)
    (left transferred : Nat) : Prop where
  housed : Housed u s
  made : (x ≠ "" ∧ (s.clientAt x).info.clientId = x) → Issued u s x
  acting : ∀ g, (s.acting g).map Prod.fst = (q g).client? x
  departed : Departed x y s q left transferred

section Step

variable {s s' : CollabService} {g : Goroutine} {n : Nat} {o : ServiceOp} {a : o.Res}
variable {q : Goroutine → Leaving} {left transferred : Nat}

/-- What the discipline knows of the answers is so. -/
theorem Departing.answer (hs : Departing u x y s q left transferred)
    (h : o.apply u g n s = some (s', a)) : (departure x).answer o a := by
  cases o with
  | rlock r range =>
    obtain ⟨-, rfl⟩ := Prod.mk.inj (Option.some.inj h)
    exact rangeTargets_nodup (hs.housed.nodup r)
  | peerJoinedEvent id c | ownerChangedEvent id c c' =>
    obtain ⟨-, rfl⟩ := Prod.mk.inj (Option.some.inj h)
    rfl
  | _ => trivial

theorem Departing.acting_next (hs : Departing u x y s q left transferred)
    (hmay : (departure x).may (q g) o) (h : o.apply u g n s = some (s', a)) :
    (s'.acting g).map Prod.fst = ((departure x).next (q g) o a).client? x := by
  have hold := hs.acting g
  have hnew := (apply_effect h).acting
  generalize q g = qg at *
  cases o with
  | findRoomForClient c =>
    obtain ⟨-, rfl⟩ := Prod.mk.inj (Option.some.inj h)
    cases qg with
    | other client =>
      rw [hnew]
      simp only [actingAfter, Option.map_map]
      rfl
    | removed _ _ | telling _ => exact hmay.elim
  | handled =>
    rw [hnew]
    cases qg <;> rfl
  | removeClient r c =>
    rw [hnew]
    cases qg with
    | other client =>
      obtain rfl : client = some c := hmay
      refine hold.trans ?_
      by_cases hc : c = x
      · subst hc
        simp [departure, Leaving.client?]
      · simp [departure, Leaving.client?, hc]
    | removed _ _ | telling _ => exact hmay.elim
  | beginDeliver c e =>
    rw [hnew]
    cases qg with
    | removed b targets =>
      refine hold.trans ?_
      simp only [departure]
      split <;> rfl
    | other _ | telling _ => exact hold
  | _ =>
    rw [hnew]
    cases qg <;> exact hold

/-- Whether a step is a `RemoveClient` of `x`. -/
def removes (x : String) : ServiceOp → Bool
  | .removeClient _ c => c = x
  | _ => false

theorem Departed.apply (hs : Departing u x y s q left transferred)
    (hconfined : ∀ {r}, x ∈ (s.roomAt r).clients → r < s.nextRoom)
    (hok : RemovesMember x g o s) (hmay : (departure x).may (q g) o)
    (h : o.apply u g n s = some (s', a)) :
    Departed x y s' (Function.update q g ((departure x).next (q g) o a))
      (left + (removes x o).toNat) (transferred + (transfers x (q g) o).toNat) := by
  have htold := timesTold_apply (x := x) (y := y) h
  have hothers : ∀ {q₀}, (∀ g', g' ≠ g → ∃ client, q g' = .other client) → ∀ g', g' ≠ g →
      ∃ client, Function.update q g q₀ g' = .other client := by
    intro q₀ hq g' hg'
    rw [Function.update_of_ne hg']
    exact hq g' hg'
  by_cases ho : ∃ r, o = .removeClient r x
  -- the removal itself: it finds the client in its room, so it is the first
  · obtain ⟨r, rfl⟩ := ho
    have hx : x ∈ (s.roomAt r).clients := hok rfl
    cases hs.departed with
    | once g₀ hleft _ _ _ => exact absurd hx (hleft.out r)
    | notYet hleft hcount htransferred htold₀ hq =>
      obtain ⟨client, hqg⟩ := hq g
      refine .once g (.removeClient hs.housed hx h) (by simp [hcount, removes]) ?_
        (hothers fun g' _ => hq g')
      rw [Function.update_self, hqg, htold, htold₀, htransferred]
      simp [departure, transfers, tells, Leaving.Spent]
  -- any other step neither takes the client out nor lets it back in
  · have ho' : ∀ r, o ≠ .removeClient r x := fun r hr => ho ⟨r, hr⟩
    have hremoves : removes x o = false := by
      cases o with
      | removeClient r c =>
        refine decide_eq_false ?_
        rintro rfl
        exact ho' r rfl
      | _ => rfl
    rw [hremoves]
    cases hs.departed with
    | notYet hleft hcount htransferred htold₀ hq =>
      obtain ⟨client, hqg⟩ := hq g
      rw [hqg] at hmay ⊢
      obtain ⟨⟨client', hnext⟩, htransfers, htells⟩ := other_next (y := y) (a := a) hmay ho'
      refine .notYet (fun h' => hleft (hasLeft_of_apply hs.made hconfined ho' h h')) hcount ?_ ?_ ?_
      · rw [htransferred, htransfers]
        rfl
      · rw [htold, htold₀, htells]
        rfl
      · intro g'
        by_cases hg' : g' = g
        · subst hg'
          exact ⟨client', by rw [Function.update_self, hnext]⟩
        · exact hothers (fun g' _ => hq g') g' hg'
    | once g₀ hleft hcount hspent hq =>
      refine .once g₀ (hleft.apply (hs.made hleft.made) h) hcount ?_ ?_
      · rw [htold]
        by_cases hg : g₀ = g
        · subst hg
          rw [Function.update_self]
          exact hspent.next hmay (hs.answer h) ho'
        · obtain ⟨client, hqg⟩ := hq g (Ne.symm hg)
          rw [hqg] at hmay ⊢
          obtain ⟨-, htransfers, htells⟩ := other_next (y := y) (a := a) hmay ho'
          rw [Function.update_of_ne hg, htransfers, htells]
          exact hspent
      · intro g' hg'
        by_cases hgg : g' = g
        · subst hgg
          obtain ⟨client, hqg⟩ := hq g' hg'
          rw [hqg] at hmay ⊢
          rw [Function.update_self]
          exact (other_next (y := y) hmay ho').1
        · rw [Function.update_of_ne hgg]
          exact hq g' hg'

theorem Departing.apply (hs : Departing u x y s q left transferred)
    (hconfined : ∀ {r}, x ∈ (s.roomAt r).clients → r < s.nextRoom)
    (hok : RemovesMember x g o s) (hmay : (departure x).may (q g) o)
    (h : o.apply u g n s = some (s', a)) :
    Departing u x y s' (Function.update q g ((departure x).next (q g) o a))
      (left + (removes x o).toNat) (transferred + (transfers x (q g) o).toNat) where
  housed := hs.housed.apply h
  made hmade := by
    rcases (apply_effect h).client x with ⟨rfl, r, ctx, join, sid, peers, -, -, rfl⟩ | ⟨hclient, -⟩
    · exact ⟨s.nextUuid, Nat.lt_succ_self _, rfl⟩
    · exact (hs.made ⟨hmade.1, hclient.clientId.symm.trans hmade.2⟩).mono
        (apply_effect h).grow.nextUuid
  acting g' := by
    by_cases hg : g' = g
    · subst hg
      rw [Function.update_self]
      exact hs.acting_next hmay h
    · rw [Function.update_of_ne hg, ((apply_effect h).rely hg).acting]
      exact hs.acting g'
  departed := .apply hs hconfined hok hmay h

theorem hasLeft_congr (hid : (s'.clientAt x).info.clientId = (s.clientAt x).info.clientId)
    (hroom : s'.roomAt = s.roomAt)
    (hclosed : (s'.clientAt x).sendCh.closed = (s.clientAt x).sendCh.closed) :
    HasLeft x s' ↔ HasLeft x s := by
  constructor
  · rintro ⟨⟨hne, hmade⟩, hout, hopened⟩
    exact ⟨⟨hne, hid.symm.trans hmade⟩, hroom ▸ hout, hclosed.symm.trans hopened⟩
  · rintro ⟨⟨hne, hmade⟩, hout, hopened⟩
    exact ⟨⟨hne, hid.trans hmade⟩, hroom ▸ hout, hclosed.trans hopened⟩

/-- Taking an event out of a queue changes none of this. -/
theorem Departing.take? {c : String} {q' : Queued} (hs : Departing u x y s q left transferred)
    (h : s.take? c = some (q', s')) : Departing u x y s' q left transferred := by
  have hid : (s'.clientAt x).info.clientId = (s.clientAt x).info.clientId := by
    obtain ⟨⟨q₁, ch⟩, -, heq⟩ := Option.map_eq_some_iff.mp h
    obtain ⟨-, rfl⟩ := Prod.mk.inj heq
    exact (clientGrow_modifyClient (s := s) (c := c)
      ⟨rfl, rfl, rfl, rfl, rfl, rfl, id, List.prefix_rfl⟩ x).clientId
  have hleft : HasLeft x s' ↔ HasLeft x s := hasLeft_congr hid (take?_roomAt h) (take?_closed h x)
  have htold : timesTold x y s' = timesTold x y s := by
    rw [timesTold, take?_sent h, timesTold]
  refine ⟨hs.housed.take? h, fun hmade => ?_, fun g => ?_, ?_⟩
  · rw [hid] at hmade
    exact (hs.made hmade).mono (Rely.take? (u := u) (g := .direct 0) h).nextUuid
  · rw [(Rely.take? (u := u) h).acting]
    exact hs.acting g
  · cases hs.departed with
    | notYet hnot hcount htransferred htold₀ hq =>
      exact .notYet (fun h' => hnot (hleft.mp h')) hcount htransferred (htold.trans htold₀) hq
    | once g hhas hcount hspent hq =>
      exact .once g (hleft.mpr hhas) hcount (htold.symm ▸ hspent) hq

end Step

/-- Every goroutine follows the discipline, and what was done for the departure agrees with
what it is at. -/
def DepartureHolds (u : UuidSource) (x y : String) (t : System) (left transferred : Nat) : Prop :=
  ∃ q, Disciplined (fun _ => Relay.follow (departure x)) (fun _ q => q = .other none) t q ∧
    Departing u x y t.shared.svc q left transferred

theorem DepartureHolds.step {t t' : System} {m : Move} {left transferred : Nat}
    (ht : DepartureHolds u x y t left transferred)
    (hconfined : ∀ {r}, x ∈ (t.shared.svc.roomAt r).clients → r < t.shared.svc.nextRoom)
    (hok : ServiceGuard (RemovesMember x) t m) (h : System.step u cfg t m = some t') :
    DepartureHolds u x y t' (left + (countsLeft x t m).toNat)
      (transferred + (transfersFor x t m).toNat) := by
  obtain ⟨q, hq, hs⟩ := ht
  -- a launch takes at most one event out of a queue
  have hlaunch : ∀ {m' s start}, m = .launch m' → m'.launch cfg t.shared = some (s, start) →
      Departing u x y s.svc q left transferred := by
    intro m' s start _ hl
    rcases Launch.apply_svc (Launch.launch_eq_some hl).2 with heq | ⟨c, q', htake⟩
    · rw [heq]
      exact hs
    · exact hs.take? htake
  rcases hq.step h with ⟨g, n, o, k, s, a, rfl, hg, hx, hmay, rfl, hfollows⟩ |
    ⟨m', s, rfl, hl, rfl, hfollows⟩ | ⟨m', s, g, p, rfl, hl, -, hidle, rfl, hfollows⟩
  · cases o with
    | service o =>
      have happly := (Op.exec_service hx).2.1
      refine ⟨_, hfollows (hs.answer happly), ?_⟩
      have hleft : countsLeft x t (.run g n) = removes x o := by
        simp only [countsLeft, hg]
        cases o <;> rfl
      have htransfers : transfersFor x t (.run g n) = transfers x (q g) o := by
        simp only [transfersFor, hg, hs.acting]
        cases o <;> rfl
      rw [hleft, htransfers]
      exact hs.apply hconfined (hok.ok hg) hmay happly
    | stream i o =>
      refine ⟨_, hfollows trivial, ?_⟩
      have hcount : countsLeft x t (.run g n) = false ∧ transfersFor x t (.run g n) = false := by
        simp only [countsLeft, transfersFor, hg, and_self]
      rw [hcount.1, hcount.2]
      simp only [Relay.follow, Function.update_eq_self]
      rw [StreamOp.apply_svc (Op.exec_stream hx).2]
      exact hs
  · exact ⟨q, hfollows, hlaunch rfl hl⟩
  · refine ⟨_, hfollows (.other none) ?_, ?_⟩
    · exact Launch.start_stays departure_callsStay (Launch.launch_eq_some hl).2
    · have hsame : Function.update q g (.other none) = q := by
        rw [← hidle, Function.update_eq_self]
      rw [hsame]
      exact hlaunch rfl hl

theorem departure_run {maxPeers : Int} {moves : List Move} {t : System}
    (hguard : Machine.Guarded (System.step u cfg) (ServiceGuard (RemovesMember x))
      (System.init maxPeers) moves)
    (h : System.run u cfg (System.init maxPeers) moves = some t) (y : String) :
    DepartureHolds u x y t
      (Machine.tally (System.step u cfg) (countsLeft x) (System.init maxPeers) moves)
      (Machine.tally (System.step u cfg) (transfersFor x) (System.init maxPeers) moves) := by
  have hrun := Machine.invariant_tally
    (c := fun b => bif b then transfersFor x else countsLeft x) (k := fun _ => 0)
    (I := fun t k => Holds (Op.exec u) (Relay.membership u cfg) t ∧
      DepartureHolds u x y t (k false) (k true)) ?_ ⟨Relay.membership_init maxPeers, ?_⟩ hguard h
  · simpa only [Nat.zero_add, cond_true, cond_false] using hrun.2
  · rintro t k m t' ⟨hmembers, ht⟩ hok hmove
    refine ⟨hmembers.step Relay.membership_sound Relay.membership_ok hmove, ?_⟩
    exact ht.step (fun hx => (hmembers.inv.svc.confined hx).1) hok hmove
  · refine ⟨fun _ => .other none, .init fun _ => rfl, .new maxPeers, ?_, fun _ => rfl,
      .notYet ?_ rfl rfl rfl fun _ => ⟨none, rfl⟩⟩
    · rintro ⟨hne, hnamed⟩
      exact absurd hnamed.symm hne
    · rintro ⟨⟨hne, hnamed⟩, -⟩
      exact absurd hnamed.symm hne

/-- In a run whose every `RemoveClient` of `x` finds it, each client is sent at most one
`PeerLeft` for `x`, at most one transfer of ownership is made in its leaves, and `OnPeerLeft`
runs for it exactly once: not before it left, and once it has. -/
theorem departure_announcedOnce {maxPeers : Int} {moves : List Move} {t : System}
    (hguard : Machine.Guarded (System.step u cfg) (ServiceGuard (RemovesMember x))
      (System.init maxPeers) moves)
    (h : System.run u cfg (System.init maxPeers) moves = some t) :
    (∀ y, timesTold x y t.shared.svc ≤ 1) ∧
    Machine.tally (System.step u cfg) (transfersFor x) (System.init maxPeers) moves ≤ 1 ∧
    (HasLeft x t.shared.svc →
      Machine.tally (System.step u cfg) (countsLeft x) (System.init maxPeers) moves = 1) ∧
    (¬ HasLeft x t.shared.svc →
      Machine.tally (System.step u cfg) (countsLeft x) (System.init maxPeers) moves = 0) := by
  have hspent : ∀ {y m n} {q : Leaving}, q.Spent y m n → m ≤ 1 ∧ n ≤ 1 := by
    intro y m n q hq
    cases q with
    | other _ => exact hq
    | removed transferred _ => exact ⟨hq.1 ▸ Bool.toNat_le _, hq.2.1 ▸ Nat.zero_le _⟩
    | telling _ => exact ⟨hq.1, hq.2.1⟩
  refine ⟨fun y => ?_, ?_⟩
  · obtain ⟨q, -, hs⟩ := departure_run hguard h y
    cases hs.departed with
    | notYet _ _ _ htold _ => omega
    | once g _ _ hq _ => exact (hspent hq).2
  · obtain ⟨q, -, hs⟩ := departure_run hguard h ""
    cases hs.departed with
    | notYet hleft hcount htransferred _ _ =>
      exact ⟨by omega, fun hhas => absurd hhas hleft, fun _ => hcount⟩
    | once g hleft hcount hq _ =>
        exact ⟨(hspent hq).1, fun _ => hcount, fun hnot => absurd hleft hnot⟩

/-- Two streams have joined `s1`, and the first is in its `LeaveRoom` when its connection
closes: it has found the room. -/
def leaveAndClose : List Move :=
  List.flatten [
    .launch (.send 0 { action := some (.join { sessionId := "s1" }) }) ::
      List.replicate 19 (.run (.send 0) 0),
    .launch (.send 1 { action := some (.join { sessionId := "s1" }) }) ::
      List.replicate 21 (.run (.send 1) 0),
    .launch (.send 0 { action := some (.leave ⟨"bye"⟩) }) :: List.replicate 3 (.run (.send 0) 0),
    [.launch (.cancel 0), .launch (.watchClose 0)]]

/-- The leave goes on, and the cleanup finds no room. -/
theorem departure_announcedOnce_leave : ∃ t,
    System.run .unary (fun _ => {}) (System.init 10) (leaveAndClose ++
      List.replicate 5 (.run (.send 0) 0) ++ List.replicate 2 (.run (.watchClose 0) 0)) = some t ∧
    timesTold "u" "uuuu" t.shared.svc = 1 ∧ (∀ y, timesTold "u" y t.shared.svc ≤ 1) := by
  have hrun : (Machine.execIf (System.step .unary fun _ => {}) (ServiceGuard (RemovesMember "u"))
      (System.init 10) (leaveAndClose ++ List.replicate 5 (.run (.send 0) 0) ++
        List.replicate 2 (.run (.watchClose 0) 0))).any
        (fun t => timesTold "u" "uuuu" t.shared.svc = 1) = true := by
    decide +kernel
  obtain ⟨t, ht, htold⟩ := (Option.any_eq_true _ _).mp hrun
  obtain ⟨hguard, ht⟩ := Machine.execIf_eq_some ht
  exact ⟨t, ht, of_decide_eq_true htold, (departure_announcedOnce hguard ht).1⟩

/-- The cleanup finds the room as well, before the leave goes on. -/
def leavesTwice : List Move :=
  List.flatten [
    leaveAndClose,
    List.replicate 3 (.run (.watchClose 0) 0),
    List.replicate 7 (.run (.send 0) 0),
    List.replicate 5 (.run (.watchClose 0) 0)]

/-- The other client is told twice, and `OnPeerLeft` runs twice. -/
theorem departureAnnouncedTwice : ∃ t,
    System.run .unary (fun _ => {}) (System.init 10) leavesTwice = some t ∧
    timesTold "u" "uuuu" t.shared.svc = 2 ∧
    Machine.tally (System.step .unary fun _ => {}) (countsLeft "u") (System.init 10) leavesTwice =
      2 := by
  have hrun : (System.run .unary (fun _ => {}) (System.init 10) leavesTwice).any
      (fun t => timesTold "u" "uuuu" t.shared.svc = 2) = true := by
    decide +kernel
  obtain ⟨t, ht, htold⟩ := (Option.any_eq_true _ _).mp hrun
  exact ⟨t, ht, of_decide_eq_true htold, by decide +kernel⟩

end MassRelay

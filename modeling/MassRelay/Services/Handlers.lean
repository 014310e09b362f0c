import MassRelay.Lib.Threads
import MassRelay.Services.Housed

/-!
# MassRelay.Services.Handlers

Rules for the handlers of the service, once for every protocol.

What a protocol of the service has to show of `HandleAction` is the same text each
time: which steps come after which. The rules here follow that text. `broadcast_wp`
is the rule of a broadcast, with an assertion on whom it still has to deliver to;
`PhaseRules` covers the handlers that first look for the room of a client, with
`ActionRules` for those protocols to which a leave is an action like any other, and
`JoinRules` those of a join up to where it is admitted. Most steps leave a protocol
nothing to say, and `plain` says which.
-/

namespace MassRelay

namespace CollabService

open Threads

variable {u : UuidSource} {s s' : CollabService} {g : Goroutine} {r : RoomRef} {α : Type}

theorem exec_eq_some {n : Nat} {o : ServiceOp} {a : o.Res}
    (h : o.exec u g n s = some (s', a)) : s.panicked = false ∧ o.apply u g n s = some (s', a) := by
  unfold ServiceOp.exec at h
  split at h
  · simp at h
  · rename_i hp
    exact ⟨Bool.eq_false_of_not_eq_true hp, h⟩

/-- A step that delivers nothing, adds nobody to a room, keeps no lock, and leaves the
record of joins and actions alone. -/
def plain : ServiceOp → Bool
  | .addClient .. | .roomJoinedEvent .. | .findRoomForClient _ | .removeClient .. | .handled
  | .rlock .. | .runlock _ | .beginDeliver .. | .put .. | .markSlow .. => false
  | _ => true

theorem delivering_of_plain {o : ServiceOp} (h : plain o = true) : delivering o = false := by
  cases o <;> first | rfl | simp [plain] at h

/-! ### Broadcasts -/

/-- The client a step of a `deliver` call is about. -/
def receiver? : ServiceOp → Option String
  | .beginDeliver c _ | .put c _ _ | .markSlow c _ => some c
  | _ => none

theorem receiver?_of_delivering {o : ServiceOp} (h : delivering o = false) :
    receiver? o = none := by
  cases o <;> simp_all [delivering, receiver?]

/-- Goroutine `g` reads room `r`, and `cs` are clients of it. -/
structure Reading (g : Goroutine) (r : RoomRef) (cs : List String) (s : CollabService) : Prop where
  room : r < s.nextRoom
  reads : g ∈ (s.roomAt r).readers
  clients : ∀ c ∈ cs, c ∈ (s.roomAt r).clients

theorem Reading.rely {cs : List String} (hrely : Rely u g s s') (hs : Reading g r cs s) :
    Reading g r cs s' := by
  obtain ⟨hreads, hclients⟩ := hrely.held hs.room hs.reads
  refine ⟨hs.room.trans_le hrely.nextRoom, hreads, ?_⟩
  rw [hclients]
  exact hs.clients

/-- The delivery steps leave the rooms alone. -/
theorem Reading.of_rooms {cs : List String} (hs : Reading g r cs s)
    (hroom : s'.roomAt = s.roomAt) (hnext : s'.nextRoom = s.nextRoom) : Reading g r cs s' := by
  refine ⟨hnext.symm ▸ hs.room, ?_, ?_⟩
  · rw [hroom]
    exact hs.reads
  · rw [hroom]
    exact hs.clients

theorem Reading.tail {c : String} {cs : List String} (hs : Reading g r (c :: cs) s) :
    Reading g r cs s :=
  ⟨hs.room, hs.reads, fun c' hc' => hs.clients c' (List.mem_cons_of_mem _ hc')⟩

/-- So the room is read on as before. -/
theorem Reading.delivering {n : Nat} {o : ServiceOp} {a : o.Res} {cs : List String}
    (ho : delivering o = true) (h : o.apply u g n s = some (s', a)) (hs : Reading g r cs s) :
    Reading g r cs s' := by
  have hsame : s'.roomAt = s.roomAt ∧ s'.nextRoom = s.nextRoom := by
    cases o with
    | beginDeliver c e =>
      obtain ⟨rfl, -⟩ := Prod.mk.inj (Option.some.inj h)
      unfold beginDeliver
      dsimp only
      split <;> exact ⟨rfl, rfl⟩
    | put c e k =>
      obtain ⟨rfl, -⟩ := Prod.mk.inj (Option.some.inj h)
      cases hput : s.put? g c e k with
      | none => exact ⟨rfl, rfl⟩
      | some s₁ => rcases put?_eq_some hput with ⟨-, rfl⟩ | ⟨ch, -, rfl⟩ <;> exact ⟨rfl, rfl⟩
    | markSlow c k =>
      obtain ⟨rfl, -⟩ := Prod.mk.inj (Option.some.inj h)
      exact ⟨rfl, rfl⟩
    | _ => simp [CollabService.delivering] at ho
  exact hs.of_rooms hsame.1 hsame.2

/-- `SendEach` delivers to the listed ids that are in the room. -/
theorem mem_eachLoop {ids seen : List String} {c : String} :
    c ∈ (s.eachLoop r ids seen).1 ↔ c ∈ ids ∧ c ∉ seen ∧ c ∈ (s.roomAt r).clients := by
  induction ids generalizing seen with
  | nil => simp [eachLoop]
  | cons id ids ih =>
    unfold eachLoop
    by_cases hseen : id ∈ seen
    · rw [if_pos hseen, ih]
      grind
    · rw [if_neg hseen]
      by_cases hid : id ∈ (s.roomAt r).clients
      · simp only [if_pos hid, List.mem_cons, ih]
        grind
      · simp only [if_neg hid, List.mem_cons, ih]
        grind

/-- A broadcast ranges over clients of its room. -/
theorem mem_rangeTargets {range : Range} {n : Nat} {c : String}
    (h : c ∈ (s.rangeTargets r n range).1) : c ∈ (s.roomAt r).clients := by
  cases range with
  | all => exact (rangeOrder_perm _ _).mem_iff.mp h
  | except _ | announce _ => exact List.mem_of_mem_filter ((rangeOrder_perm _ _).mem_iff.mp h)
  | each ids => exact (mem_eachLoop.mp h).2.2

theorem eachLoop_nodup (s : CollabService) (r : RoomRef) (ids seen : List String) :
    (s.eachLoop r ids seen).1.Nodup := by
  induction ids generalizing seen with
  | nil => exact List.nodup_nil
  | cons id ids ih =>
    simp only [eachLoop]
    split
    · exact ih seen
    · split
      · refine List.nodup_cons.mpr ⟨fun h => ?_, ih (id :: seen)⟩
        exact (mem_eachLoop.mp h).2.1 List.mem_cons_self
      · exact ih (id :: seen)

/-- A broadcast delivers to nobody twice. -/
theorem rangeTargets_nodup {range : Range} {n : Nat} (h : (s.roomAt r).clients.Nodup) :
    (s.rangeTargets r n range).1.Nodup := by
  cases range with
  | all => exact (rangeOrder_perm n _).nodup_iff.mpr h
  | except c | announce c => exact (rangeOrder_perm n _).nodup_iff.mpr (h.filter _)
  | each ids => exact eachLoop_nodup s r ids []

theorem rlock_roomAt_self (s : CollabService) (g : Goroutine) (r : RoomRef) (range : Range) :
    (s.rlock g r range).roomAt r =
      { s.roomAt r with readers := insert g (s.roomAt r).readers } := by
  unfold rlock
  cases range <;> simp [noteProgress]

/-- After the lock the range is still in the room, which is now being read. -/
theorem rlock_reading (s : CollabService) (g : Goroutine) (n : Nat) (range : Range)
    (hr : r < s.nextRoom) : Reading g r (s.rangeTargets r n range).1 (s.rlock g r range) := by
  refine ⟨?_, ?_, ?_⟩
  · cases range <;> exact hr
  · rw [rlock_roomAt_self]
    exact Finset.mem_insert_self _ _
  · intro c hc
    rw [rlock_roomAt_self]
    exact mem_rangeTargets hc

section Rules

variable {P : Protocol CollabService Goroutine ServiceOp Unit}

/-- The rule of a `deliver` call, by its steps: `F` is what holds between the test of the
slow flag and the put, and `M` after a put that found the queue full. -/
theorem deliver_steps {c : String} {e : CollabEvent} {F M : Nat → CollabService → Prop}
    {Q : CollabService → Prop}
    (hbegin : wp (ServiceOp.exec u) P g (Call.perform (.beginDeliver c e))
      (fun call s => (call = none → Q s) ∧ ∀ k, call = some k → F k s) s)
    (hput : ∀ k s, F k s → wp (ServiceOp.exec u) P g (Call.perform (.put c e k))
      (fun queued s => (queued = true → Q s) ∧ (queued = false → M k s)) s)
    (hslow : ∀ k s, M k s → wp (ServiceOp.exec u) P g (Call.perform (.markSlow c k))
      (fun _ => Q) s) :
    wp (ServiceOp.exec u) P g (Call.deliver c e) (fun _ => Q) s := by
  refine wp_bind (wp_mono ?_ hbegin)
  rintro call s₁ ⟨hnone, hsome⟩
  cases call with
  | none => exact hnone rfl
  | some k =>
    refine wp_bind (wp_mono ?_ (hput k s₁ (hsome k rfl)))
    rintro queued s₂ ⟨htrue, hfalse⟩
    cases queued with
    | true => exact htrue rfl
    | false => exact hslow k s₂ (hfalse rfl)

/-- The loop of a broadcast: `L cs` holds while the clients `cs` are still to be
delivered to. -/
theorem deliverEach_wp {L : List String → CollabService → Prop} {build : String → CollabEvent}
    (hdeliver : ∀ c cs s, L (c :: cs) s →
      wp (ServiceOp.exec u) P g (Call.deliver c (build c)) (fun _ => L cs) s)
    (cs : List String) (hs : L cs s) :
    wp (ServiceOp.exec u) P g (Call.deliverEach (cs.map fun c => (c, build c)))
      (fun _ => L []) s := by
  induction cs generalizing s with
  | nil => exact hs
  | cons c cs ih => exact wp_bind (wp_mono (fun _ _ h => ih h) (hdeliver c cs s hs))

/-- The rule of a broadcast. -/
theorem broadcast_wp {range : Range} {build : String → CollabEvent}
    {L : List String → CollabService → Prop} {Q : CollabService → Prop}
    (hlock : wp (ServiceOp.exec u) P g (Call.perform (.rlock r range)) (fun a => L a.1) s)
    (hdeliver : ∀ c cs s, L (c :: cs) s →
      wp (ServiceOp.exec u) P g (Call.deliver c (build c)) (fun _ => L cs) s)
    (hunlock : ∀ s, L [] s →
      wp (ServiceOp.exec u) P g (Call.perform (.runlock r)) (fun _ => Q) s) :
    wp (ServiceOp.exec u) P g (Call.broadcast r range build) (fun _ => Q) s := by
  refine wp_bind (wp_mono ?_ hlock)
  rintro ⟨targets, missing⟩ s₁ hs₁
  refine wp_bind (wp_mono ?_ (deliverEach_wp hdeliver targets hs₁))
  intro _ s₂ hs₂
  exact wp_bind (wp_mono (fun _ _ h => h) (hunlock s₂ hs₂))

/-- A step that keeps `A`, with what its answer is known to be. -/
theorem perform_post {A : CollabService → Prop} {o : ServiceOp} {B : o.Res → Prop}
    (hA : Keeps (ServiceOp.exec u) P g A (Call.perform o))
    (hpost : ∀ {n s s' a}, o.apply u g n s = some (s', a) → B a) (hs : A s) :
    wp (ServiceOp.exec u) P g (Call.perform o) (fun a s => A s ∧ B a) s := by
  intro s₁ hrely hinv
  obtain ⟨hreq, hstep⟩ := hA s hs s₁ hrely hinv
  refine ⟨hreq, fun n s₂ a hok hx => ?_⟩
  obtain ⟨hinv₂, hA₂⟩ := hstep n s₂ a hok hx
  exact ⟨hinv₂, hA₂, hpost (exec_eq_some hx).2⟩

/-! ### Actions of a client -/

/-- An event that an action of client `x` makes. -/
structure FromClient (x : String) (e : CollabEvent) : Prop where
  fromClientId : e.fromClientId = x
  isPeerJoined : e.isPeerJoined = false

/-- The ranges of what a client does in a room: everyone else there, or the clients a
message is addressed to. -/
def RelayRange (x : String) : Range → Prop
  | .except c => c = x
  | .each _ => True
  | .all | .announce _ => False

/-- What a protocol shows of the steps of an action of client `x` in room `r` that keep
`A`: the broadcasts among them range over `ranges`. -/
structure RoomRules (u : UuidSource) (P : Protocol CollabService Goroutine ServiceOp Unit)
    (g : Goroutine) (x : String) (ranges : Range → Prop) (r : RoomRef)
    (A : CollabService → Prop) : Prop where
  plain : ∀ {o}, CollabService.plain o = true →
    Keeps (ServiceOp.exec u) P g A (Call.perform o)
  broadcast : ∀ {range build}, ranges range → (∀ c, FromClient x (build c)) →
    Keeps (ServiceOp.exec u) P g A (Call.broadcast r range build)

namespace RoomRules

variable {x : String} {ranges : Range → Prop} {A : CollabService → Prop}

section

variable (h : RoomRules u P g x ranges r A)

include h

theorem error_keeps (code message : String) :
    Keeps (ServiceOp.exec u) P g A (Call.error code message) :=
  .bind (h.plain rfl) fun _ => .ret _

theorem announceLeft_keeps (hall : ranges .all) (reason : String) (count : Nat) :
    Keeps (ServiceOp.exec u) P g A (Call.announceLeft x reason r count) :=
  .bind (h.plain rfl) fun _ =>
    .bind (h.broadcast hall fun _ => ⟨rfl, rfl⟩) fun _ =>
    .bind (.onlyIf (h.plain rfl)) fun _ => .bind (h.plain rfl) fun _ => .ret _

theorem endRoom_keeps (hall : ranges .all) :
    Keeps (ServiceOp.exec u) P g A (Call.endRoom x r) :=
  .bind (h.plain rfl) fun _ =>
    .bind (h.broadcast hall fun _ => ⟨rfl, rfl⟩) fun _ =>
    .bind (h.plain rfl) fun _ => .bind (h.plain rfl) fun _ => .bind (h.plain rfl) fun _ => .ret _

theorem findSuccessor_keeps (browserId : String) :
    Keeps (ServiceOp.exec u) P g A (Call.findSuccessor r browserId x) := by
  unfold Call.findSuccessor
  split
  · exact h.plain rfl
  · exact .ret _

theorem leaveOwner_keeps (hall : ranges .all) (reason browserId : String) (count : Nat) :
    Keeps (ServiceOp.exec u) P g A (Call.leaveOwner x reason r browserId count) := by
  refine .bind (h.findSuccessor_keeps browserId) fun successor => ?_
  cases successor with
  | none => exact h.endRoom_keeps hall
  | some successor =>
    refine .bind (h.plain rfl) fun _ => .bind (h.plain rfl) fun eventId => ?_
    intro s hs
    refine wp_bind (wp_mono ?_ (perform_post (B := FromClient x) (h.plain rfl) ?_ hs))
    · rintro e s₁ ⟨hs₁, he⟩
      exact Keeps.bind (h.broadcast hall fun _ => he)
        (fun _ => h.announceLeft_keeps hall reason count) s₁ hs₁
    · intro n s s' e hx
      obtain ⟨-, rfl⟩ := Prod.mk.inj (Option.some.inj hx)
      exact ⟨rfl, rfl⟩

theorem noteRelayed_keeps (action : Action) :
    Keeps (ServiceOp.exec u) P g A (Call.noteRelayed r action) := by
  unfold Call.noteRelayed
  split
  · split
    · exact h.plain rfl
    · exact .ret _
  · exact h.plain rfl
  · exact .ret _

theorem relay_keeps (hrelays : ∀ range, RelayRange x range → ranges range) (action : Action)
    (eventId : String) {event : Event} (hevent : relayed action = some event) :
    Keeps (ServiceOp.exec u) P g A (Call.relay x r action eventId event) := by
  have hnot : CollabEvent.isPeerJoined { eventId, fromClientId := x, event } = false := by
    cases action <;> simp [relayed] at hevent <;> subst hevent <;> rfl
  unfold Call.relay
  split
  · exact .bind (h.broadcast (hrelays _ rfl) fun _ => ⟨rfl, hnot⟩) fun _ =>
      .bind (h.plain rfl) fun _ => .ret _
  · refine .bind (h.broadcast (hrelays _ trivial) fun _ => ⟨rfl, rfl⟩) fun missing =>
      .bind (h.plain rfl) fun _ => ?_
    split
    · exact .ret _
    · exact h.error_keeps _ _

end

end RoomRules

/-- What a protocol shows of an action of client `x`: it keeps `I`, once its room `r` is
known `A r`, and once it has removed `x` from there `B r`. -/
structure PhaseRules (u : UuidSource) (P : Protocol CollabService Goroutine ServiceOp Unit)
    (g : Goroutine) (x : String) (I : CollabService → Prop) (A B : RoomRef → CollabService → Prop) :
    Prop where
  forget : ∀ {r s}, A r s → I s
  forgetLeft : ∀ {r s}, B r s → I s
  find : ∀ {s}, I s → wp (ServiceOp.exec u) P g (Call.perform (.findRoomForClient x))
    (fun room s => I s ∧ ∀ r, room = some r → A r s) s
  present : ∀ r, RoomRules u P g x (RelayRange x) r (A r)
  remove : ∀ {r s}, A r s →
    wp (ServiceOp.exec u) P g (Call.perform (.removeClient r x)) (fun _ => B r) s
  left : ∀ r, RoomRules u P g x (fun range => range = .all) r (B r)

namespace PhaseRules

variable {x : String} {I : CollabService → Prop} {A B : RoomRef → CollabService → Prop}

section

variable (h : PhaseRules u P g x I A B)

include h

/-- An action that starts by looking for its client's room. -/
theorem find_keeps {f : Option RoomRef → Call α}
    (hnone : Keeps (ServiceOp.exec u) P g I (f none))
    (hsome : ∀ r s, A r s → wp (ServiceOp.exec u) P g (f (some r)) (fun _ => I) s) :
    Keeps (ServiceOp.exec u) P g I (Call.perform (.findRoomForClient x) >>= f) := by
  intro s hs
  refine wp_bind (wp_mono ?_ (h.find hs))
  rintro room s₁ ⟨hI, hA⟩
  cases room with
  | none => exact hnone s₁ hI
  | some r => exact hsome r s₁ (hA r rfl)

theorem handleLeave_keeps (leave : LeaveRoom) :
    Keeps (ServiceOp.exec u) P g I (Call.handleLeave x leave) := by
  refine h.find_keeps (.ret _) fun r s hs => ?_
  refine wp_bind (wp_mono ?_ ((h.present r).plain rfl s hs))
  intro flags s₁ hs₁
  refine wp_bind (wp_mono ?_ (h.remove hs₁))
  intro _ s₂ hs₂
  refine wp_mono (fun _ _ h' => h.forgetLeft h')
    (Keeps.bind ((h.left r).plain rfl) (fun count => ?_) s₂ hs₂)
  split
  · exact (h.left r).leaveOwner_keeps rfl leave.reason _ count
  · exact (h.left r).announceLeft_keeps rfl leave.reason count

theorem handlePresence_keeps (presence : PresenceUpdate) :
    Keeps (ServiceOp.exec u) P g I (Call.handlePresence x presence) := by
  refine h.find_keeps (.ret _) fun r s hs => wp_mono (fun _ _ h' => h.forget h')
    (Keeps.bind ((h.present r).plain rfl) (fun _ => ?_) s hs)
  exact .bind ((h.present r).broadcast rfl fun _ => ⟨rfl, rfl⟩) fun _ => .ret _

theorem handleBroadcast_keeps (action : Action) :
    Keeps (ServiceOp.exec u) P g I (Call.handleBroadcast x action) := by
  refine h.find_keeps (.ret _) fun r s hs => wp_mono (fun _ _ h' => h.forget h')
    (Keeps.bind ((h.present r).plain rfl) (fun eventId => ?_) s hs)
  split
  · exact .ret _
  · rename_i event hevent
    exact .bind ((h.present r).noteRelayed_keeps action) fun _ =>
      (h.present r).relay_keeps (fun _ h => h) action eventId hevent

/-- Every action but a join. -/
theorem route_keeps {ctx : Ctx} {a : CollabAction} (ha : a.clientId = x)
    (hjoin : ∀ join, a.action ≠ some (.join join)) :
    Keeps (ServiceOp.exec u) P g I (Call.route ctx a) := by
  subst ha
  unfold Call.route
  split
  · rename_i join haction
    exact absurd haction (hjoin join)
  · exact h.handleLeave_keeps _
  · exact h.handlePresence_keeps _
  · exact h.handleBroadcast_keeps _
  · exact .ret _

end

end PhaseRules

/-- What a protocol shows of the steps of an action of client `x`: it keeps `I`, and
once its room `r` is known `A r`. -/
structure ActionRules (u : UuidSource) (P : Protocol CollabService Goroutine ServiceOp Unit)
    (g : Goroutine) (x : String) (I : CollabService → Prop) (A : RoomRef → CollabService → Prop) :
    Prop where
  forget : ∀ {r s}, A r s → I s
  find : ∀ {s}, I s → wp (ServiceOp.exec u) P g (Call.perform (.findRoomForClient x))
    (fun room s => I s ∧ ∀ r, room = some r → A r s) s
  plain : ∀ {r o}, CollabService.plain o = true →
    Keeps (ServiceOp.exec u) P g (A r) (Call.perform o)
  remove : ∀ {r}, Keeps (ServiceOp.exec u) P g (A r) (Call.perform (.removeClient r x))
  broadcast : ∀ {r range build}, (∀ c, range ≠ .announce c) → (∀ c, FromClient x (build c)) →
    Keeps (ServiceOp.exec u) P g (A r) (Call.broadcast r range build)

/-- An action that keeps the same throughout. -/
theorem ActionRules.phases {x : String} {I : CollabService → Prop}
    {A : RoomRef → CollabService → Prop} (h : ActionRules u P g x I A) :
    PhaseRules u P g x I A A where
  forget := h.forget
  forgetLeft := h.forget
  find := h.find
  present r := by
    refine ⟨h.plain, fun {range build} hrelays => h.broadcast fun c hc => ?_⟩
    subst hc
    exact hrelays
  remove hs := h.remove _ hs
  left r := by
    refine ⟨h.plain, fun {range build} hall => h.broadcast fun c hc => ?_⟩
    simp [hall] at hc

/-! ### Joins -/

/-- The answer of a join that was admitted. -/
def roomJoined? : Answer → Option RoomJoined
  | .event { event := .roomJoined rj, .. } => some rj
  | _ => none

/-- What a protocol shows of the steps of a join, from `I` to `Q`: once it has its room
`r`, under session `sid`, it keeps `A sid r`. -/
structure JoinRules (u : UuidSource) (P : Protocol CollabService Goroutine ServiceOp Unit)
    (g : Goroutine) (ctx : Ctx) (join : JoinRoom) (I : CollabService → Prop)
    (A : String → RoomRef → CollabService → Prop) (Q : Answer → CollabService → Prop) : Prop where
  forget : ∀ {sid r s}, A sid r s → I s
  refused : ∀ {answer s}, roomJoined? answer = none → I s → Q answer s
  outside : ∀ {o}, plain o = true → Keeps (ServiceOp.exec u) P g I (Call.perform o)
  create : ∀ {sid s}, allowsRoom ctx sid = true → sid ≠ "" → I s →
    wp (ServiceOp.exec u) P g (Call.perform (.getOrCreateRoom sid)) (A sid) s
  inside : ∀ {sid r o}, plain o = true → Keeps (ServiceOp.exec u) P g (A sid r) (Call.perform o)
  accept : ∀ {sid r enc s}, A sid r s →
    wp (ServiceOp.exec u) P g (Call.accept ctx join sid r enc) Q s

namespace JoinRules

variable {ctx : Ctx} {join : JoinRoom} {I : CollabService → Prop}
variable {A : String → RoomRef → CollabService → Prop} {Q : Answer → CollabService → Prop}

section

variable (h : JoinRules u P g ctx join I A Q)

include h

theorem error_wp {code message : String} (hs : I s) :
    wp (ServiceOp.exec u) P g (Call.error code message) Q s :=
  wp_bind (wp_mono (fun _ _ hs => h.refused rfl hs) (h.outside rfl s hs))

theorem enterRoom_wp {sid : String} (hs : A sid r s) :
    wp (ServiceOp.exec u) P g (Call.enterRoom ctx join sid r) Q s := by
  have hcheck : ∀ s, A sid r s →
      wp (ServiceOp.exec u) P g (Call.checkEncryption ctx join sid r) Q s := by
    intro s hs
    refine wp_bind (wp_mono ?_ (Keeps.onlyIf (h.inside rfl) s hs))
    intro _ s₁ hs₁
    refine wp_bind (wp_mono ?_ (h.inside rfl s₁ hs₁))
    intro enc s₂ hs₂
    split
    · exact h.error_wp (h.forget hs₂)
    · exact h.accept hs₂
  refine wp_bind (wp_mono ?_ (h.inside rfl s hs))
  intro full s₁ hs₁
  split
  · exact wp_bind (wp_mono (fun _ _ hs => h.error_wp (h.forget hs)) (h.inside rfl s₁ hs₁))
  · split
    · refine wp_bind (wp_mono ?_ (h.inside rfl s₁ hs₁))
      intro elsewhere s₂ hs₂
      split
      · exact h.refused rfl (h.forget hs₂)
      · exact hcheck s₂ hs₂
    · exact hcheck s₁ hs₁

/-- The session a join is resolved to has a name, and is one that its principal may join:
a restricted one has to name it. -/
theorem resolveSession_wp (hallows : allowsRoom ctx join.sessionId = true) (hs : I s) :
    wp (ServiceOp.exec u) P g (Call.resolveSession join)
      (fun sid s => allowsRoom ctx sid = true ∧ sid ≠ "" ∧ I s) s := by
  have hany : join.sessionId = "" → ∀ sid, allowsRoom ctx sid = true := by
    intro hsid sid
    rw [hsid] at hallows
    cases ctx with
    | none => rfl
    | some p =>
      have hrooms := allowsRoom_iff.mp hallows
      exact allowsRoom_iff.mpr (Or.inl (hrooms.resolve_right fun h => h.1 rfl))
  have huuid : ∀ s, join.sessionId = "" → I s → wp (ServiceOp.exec u) P g Call.uuid
      (fun sid s => allowsRoom ctx sid = true ∧ sid ≠ "" ∧ I s) s := by
    intro s hsid hs
    refine wp_mono (fun sid _ hs => ⟨hany hsid sid, hs.2, hs.1⟩)
      (perform_post (B := fun sid => sid ≠ "") (h.outside rfl) ?_ hs)
    intro n s s' sid hx
    obtain ⟨-, rfl⟩ := Prod.mk.inj (Option.some.inj hx)
    exact u.new_ne_empty _
  unfold Call.resolveSession
  by_cases hsid : join.sessionId = ""
  · rw [if_neg (by simpa using hsid)]
    split
    · refine wp_bind (wp_mono ?_ (h.outside rfl s hs))
      intro existing s₁ hs₁
      split
      · rename_i hne
        exact ⟨hany hsid _, hne, hs₁⟩
      · exact huuid s₁ hsid hs₁
    · exact huuid s hsid hs
  · rw [if_pos hsid]
    exact ⟨hallows, hsid, hs⟩

theorem lacksRoom_keeps (sid : String) :
    Keeps (ServiceOp.exec u) P g I (Call.lacksRoom join sid) := by
  unfold Call.lacksRoom
  split
  · exact .bind (h.outside rfl) fun _ => .ret _
  · exact .ret _

theorem handleJoin_wp (hs : I s) :
    wp (ServiceOp.exec u) P g (Call.handleJoin ctx join) Q s := by
  unfold Call.handleJoin
  split
  · exact h.error_wp hs
  · rename_i hallows
    have hallows : allowsRoom ctx join.sessionId = true := by simpa using hallows
    refine wp_bind (wp_mono ?_ (h.resolveSession_wp hallows hs))
    rintro sid s₁ ⟨hsid, hne, hs₁⟩
    refine wp_bind (wp_mono ?_ (Keeps.onlyIf (h.outside rfl) s₁ hs₁))
    intro _ s₂ hs₂
    refine wp_bind (wp_mono ?_ (h.lacksRoom_keeps sid s₂ hs₂))
    intro lost s₃ hs₃
    split
    · exact h.error_wp hs₃
    · exact wp_bind (wp_mono (fun _ _ hs => h.enterRoom_wp hs) (h.create hsid hne hs₃))

end

end JoinRules

end Rules

end CollabService

end MassRelay

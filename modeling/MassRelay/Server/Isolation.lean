import MassRelay.Server.Authenticity
import MassRelay.Server.Delivery
import MassRelay.Services.Isolation

/-!
# MassRelay.Server.Isolation

What crosses from one stream to another.

Sessions stay apart in the queues of the clients (`sessions_isolated`), and since what a
stream returns is what the queues of its own clients held, in the streams as well: two streams
that exchange an event were opened with tokens that both cover its session
(`streams_isolated`).
-/

namespace MassRelay

open Threads CollabService

variable {u : UuidSource} {cfg : Nat → StreamConfig} {maxPeers : Int} {moves : List Move}
variable {t : System}

theorem isolation_serviceSound : ServiceSound u (isolation u) where
  refl := .refl u _ _
  trans h h' := h.trans h'
  idle_stable _ _ := trivial
  guarantee _ _ _ hx hne := (CollabService.apply_effect (exec_eq_some hx).2).rely hne
  take hinv h := ⟨hinv.take? h, fun _ => .take? h⟩

theorem isolation_callsKeep (g : Goroutine) :
    CallsKeep u (isolation u) g ((isolation u).idle g) where
  stable _ _ := trivial
  uuid := anywhere_keeps fun _ => trivial
  getClient sid c := by
    refine .bind (anywhere_keeps (o := .getRoomByID sid) fun _ => trivial) fun room => ?_
    cases room with
    | none => exact .ret _
    | some r => exact anywhere_keeps (o := .hasClient r c) fun _ => trivial
  handleAction := handleAction_isolated

theorem isolation_holds (h : System.run u cfg (System.init maxPeers) moves = some t) :
    Holds (Op.exec u) (Relay.lift True (isolation u)) t := by
  refine (isolation_serviceSound.lift isolation_callsKeep
    fun _ => deliverAppMessage_isolated).holds (.init ?_ fun _ => trivial)
    (Machine.guarded_of_forall fun m _ t => ?_) h
  · exact Isolated.new maxPeers
  cases m with
  | run g n =>
    intro o _ _
    cases o <;> trivial
  | launch m => cases m <;> trivial

/-- Sessions do not mix. In every state that a run reaches, whatever the order of steps, an
event in the queue of client `y` comes from a client that joined the session of `y`, unless it
is an application message of an embedding server; it comes from `y` itself only as a message
that lists `y`; and an application message is addressed to `y` alone or to the whole room. -/
theorem sessions_isolated (h : System.run u cfg (System.init maxPeers) moves = some t)
    {y : String} {q : Queued} (hq : q ∈ (t.shared.svc.clientAt y).enqueued) :
    ((t.shared.svc.clientAt q.event.fromClientId).sessionId = (t.shared.svc.clientAt y).sessionId ∨
      (∃ k, q.sender = .direct k) ∧ ∃ msg, q.event.event = .appMessage msg) ∧
    (q.event.fromClientId = y → ∃ msg, q.event.event = .appMessage msg ∧ msg.toClientIds = [y]) ∧
    ∀ msg, q.event.event = .appMessage msg → msg.toClientIds = [] ∨ msg.toClientIds = [y] := by
  obtain ⟨⟨hown, haddressed⟩, htogether⟩ := (isolation_holds h).inv.queued hq
  exact ⟨htogether.imp_left fun htogether => htogether.session, hown, fun _ => haddressed⟩

/-- Whoever put an event in a queue for a stream did so in a session that its token covers. -/
theorem sender_covered (h : System.run u cfg (System.init maxPeers) moves = some t)
    {y : String} {q : Queued} (hq : q ∈ (t.shared.svc.clientAt y).enqueued) {j : Nat}
    (hj : q.sender.stream? = some j) :
    t.JoinedAs j q.event.fromClientId ∧
      allowsRoom (cfg j).principal (t.shared.svc.clientAt y).sessionId = true := by
  have hmembers := Relay.membership_holds h
  have hinv := (isolation_holds h).inv
  have hcreator : (t.shared.svc.clientAt q.event.fromClientId).creator = .send j := by
    have hauthentic := hmembers.inv.svc.authentic hq
    cases hjoined : q.event.isPeerJoined with
    | true =>
      have hcreator := (hauthentic.peerJoined hjoined).creator
      exact (hmembers.inv.svc.creator (hcreator ▸ hj)).1
    | false => exact (hauthentic.action hjoined j hj).2.1
  refine ⟨joinedAs_of_creator hmembers hcreator, ?_⟩
  rcases (hinv.queued hq).together with htogether | ⟨⟨k, hk⟩, -⟩
  · have hallowed := hinv.allowed q.event.fromClientId
    rwa [(hmembers.inv.svc.creator (i := j) (by rw [hcreator]; rfl)).2,
      htogether.session] at hallowed
  · simp [hk, Goroutine.stream?] at hj

/-- What `Recv` returns for a client was in the queue of that client, whom the stream joined. -/
theorem returned_queued (h : System.run u cfg (System.init maxPeers) moves = some t)
    (hup : t.shared.crashed = false) {i : Nat} {c : String} {q : Queued}
    (hq : .room c q ∈ (t.shared.streams i).returned) :
    (t.shared.streams i).Has c ∧ q ∈ (t.shared.svc.clientAt c).enqueued := by
  have hforwards := forwards_run h
  have hmembers := Relay.membership_holds h
  have hitem : q ∈ roomItems c (t.shared.streams i).queued := by
    refine List.mem_filterMap.mpr ⟨.room c q, ?_, by simp [Item.from?]⟩
    rw [← hforwards.received i]
    exact List.mem_append_left _ hq
  refine ⟨hmembers.inv.bridges (i := i) (c := c) fun hoff => ?_, ?_⟩
  · have hpassed := hforwards.passed (panicked_of_crashed hup) i c
    rw [hoff] at hpassed
    simp [show roomItems c (t.shared.streams i).queued = [] from hpassed] at hitem
  · rw [hmembers.inv.svc.queue c]
    exact List.mem_append_left _ ((hforwards.ordered i c).subset hitem)

/-- Tokens bound what crosses from one stream to another. As long as the process is up, an
event that `Recv` has returned for a client, on the stream that joined the client, is one of a
session that the token of this stream covers; and if a goroutine of another stream put it in
the queue, it comes from a client that the other stream joined to the same session, which the
token of that stream covers too. -/
theorem streams_isolated (h : System.run u cfg (System.init maxPeers) moves = some t)
    (hup : t.shared.crashed = false) {i : Nat} {c : String} {q : Queued}
    (hq : .room c q ∈ (t.shared.streams i).returned) :
    t.JoinedAs i c ∧ allowsRoom (cfg i).principal (t.shared.svc.clientAt c).sessionId = true ∧
    ∀ j, q.sender.stream? = some j → t.JoinedAs j q.event.fromClientId ∧
      (t.shared.svc.clientAt q.event.fromClientId).sessionId =
        (t.shared.svc.clientAt c).sessionId ∧
      allowsRoom (cfg j).principal (t.shared.svc.clientAt c).sessionId = true := by
  have hmembers := Relay.membership_holds h
  have hinv := (isolation_holds h).inv
  obtain ⟨⟨rj, hrj, rfl⟩, hq⟩ := returned_queued h hup hq
  have hcreator := (hmembers.inv.answered hrj).creator
  refine ⟨joinedAs_of_creator hmembers hcreator, ?_, fun j hj => ?_⟩
  · have hallowed := hinv.allowed rj.clientId
    rwa [(hmembers.inv.svc.creator (i := i) (by rw [hcreator]; rfl)).2] at hallowed
  · obtain ⟨hjoined, hcovered⟩ := sender_covered h hq hj
    refine ⟨hjoined, ?_, hcovered⟩
    rcases (hinv.queued hq).together with htogether | ⟨⟨k, hk⟩, -⟩
    · exact htogether.session
    · simp [hk, Goroutine.stream?] at hj

/-- Two streams with tokens for `s1` join it, and the first receives the `PeerJoined` of the
second. -/
def tokensFor (i : Nat) : StreamConfig :=
  if i < 2 then { principal := some ⟨"ann", "", ["s1"]⟩ } else {}

theorem sessions_isolated_joinAndRecv : ∃ t,
    System.run .unary tokensFor (System.init 10) joinAndRecv = some t ∧
    ∃ q ∈ (t.shared.svc.clientAt "u").enqueued, q.event.fromClientId = "uuuu" ∧
      (t.shared.svc.clientAt "uuuu").sessionId = (t.shared.svc.clientAt "u").sessionId := by
  have hrun : (System.run .unary tokensFor (System.init 10) joinAndRecv).any (fun t =>
      (t.shared.svc.clientAt "u").enqueued.any fun q =>
        q.event.fromClientId = "uuuu" && q.sender = .send 1) = true := by
    decide +kernel
  obtain ⟨t, ht, hq⟩ := (Option.any_eq_true _ _).mp hrun
  obtain ⟨q, hq, hfrom⟩ := List.any_eq_true.mp hq
  obtain ⟨hfrom, hsender⟩ : q.event.fromClientId = "uuuu" ∧ q.sender = .send 1 := by
    simpa using hfrom
  refine ⟨t, ht, q, hq, hfrom, ?_⟩
  rcases (sessions_isolated ht hq).1 with hsession | ⟨⟨k, hk⟩, -⟩
  · exact hfrom ▸ hsession
  · simp [hk] at hsender

theorem streams_isolated_joinAndRecv : ∃ t,
    System.run .unary tokensFor (System.init 10) joinAndRecv = some t ∧
    ∃ q, .room "u" q ∈ (t.shared.streams 0).returned ∧
      t.JoinedAs 1 q.event.fromClientId := by
  have hrun : (System.run .unary tokensFor (System.init 10) joinAndRecv).any (fun t =>
      t.shared.crashed = false &&
        (roomItems "u" (t.shared.streams 0).returned).any fun q => q.sender = .send 1) = true := by
    decide +kernel
  obtain ⟨t, ht, hstate⟩ := (Option.any_eq_true _ _).mp hrun
  obtain ⟨hup, hreturned⟩ := Bool.and_eq_true_iff.mp hstate
  obtain ⟨q, hq, hsender⟩ := List.any_eq_true.mp hreturned
  obtain ⟨item, hitem, hfrom⟩ := List.mem_filterMap.mp hq
  cases item with
  | reply e => simp [Item.from?] at hfrom
  | room c q' =>
    obtain ⟨rfl, rfl⟩ : c = "u" ∧ q' = q := by simpa [Item.from?] using hfrom
    have hmark : q'.sender = .send 1 := of_decide_eq_true hsender
    exact ⟨t, ht, q', hitem,
      ((streams_isolated ht (of_decide_eq_true hup) hitem).2.2 1 (by rw [hmark]; rfl)).1⟩

end MassRelay

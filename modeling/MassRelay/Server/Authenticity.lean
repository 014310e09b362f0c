import MassRelay.Server.Membership

/-!
# MassRelay.Server.Authenticity

Who an event comes from, who a peer is, and where a client may be.

All of it follows from the terms on which streams use the service
(`MassRelay.Server.Membership`), so what remains is to read it off a state that a run
reaches. The calls of an embedding server are part of the runs; what they enqueue is
theirs to answer for (`direct_absent` says that nobody else does so in their name).
-/

namespace MassRelay

open Threads CollabService

variable {u : UuidSource} {cfg : Nat → StreamConfig} {maxPeers : Int} {moves : List Move}
variable {t : System}

/-- A join of stream `i` made client `x`, and was answered with it or is still under
way. -/
structure System.JoinedAs (t : System) (i : Nat) (x : String) : Prop where
  creator : (t.shared.svc.clientAt x).creator = .send i
  answered : (t.shared.streams i).Has x ∨ (t.threads (.send i)).isSome

theorem System.JoinedAs.unique {i j : Nat} {x : String} (hi : t.JoinedAs i x)
    (hj : t.JoinedAs j x) : i = j :=
  Goroutine.send.inj (hi.creator.symm.trans hj.creator)

/-- A client that a join of stream `i` made. -/
theorem joinedAs_of_creator {i : Nat} {x : String}
    (ht : Holds (Op.exec u) (Relay.membership u cfg) t)
    (h : (t.shared.svc.clientAt x).creator = .send i) : t.JoinedAs i x := by
  refine ⟨h, ?_⟩
  cases hrunning : t.threads (.send i) with
  | some p => exact Or.inr rfl
  | none => exact Or.inl (ht.idle hrunning i rfl x h)

/-- A run without calls of `direct k` has nothing in a queue that it put there. -/
theorem direct_absent {k : Nat} (hmoves : ∀ call, .launch (.direct k call) ∉ moves)
    (h : System.run u cfg (System.init maxPeers) moves = some t) {y : String} {q : Queued}
    (hq : q ∈ (t.shared.svc.clientAt y).enqueued) : q.sender ≠ .direct k := by
  let I : System → Prop := fun t => t.threads (.direct k) = none ∧
    ∀ {y q}, q ∈ (t.shared.svc.clientAt y).enqueued → q.sender ≠ .direct k
  suffices hI : I t from hI.2 hq
  have hguarded : Machine.Guarded (System.step u cfg)
      (fun _ m => ∀ call, m ≠ .launch (.direct k call)) (System.init maxPeers) moves :=
    Machine.guarded_of_forall fun m hm _ call heq => hmoves call (heq ▸ hm)
  refine Machine.invariant_guarded (I := I) ?_ ⟨rfl, ?_⟩ hguarded h
  · rintro t m t' ⟨hnone, hqueues⟩ hm hstep
    cases m with
    | run g n =>
      obtain ⟨o, cont, s, r, hg, hx, rfl⟩ := step_run hstep
      have hne : Goroutine.direct k ≠ g := by
        rintro rfl
        simp [hnone] at hg
      refine ⟨(Function.update_of_ne hne _ _).trans hnone, fun {y q} hq => ?_⟩
      cases o with
      | service o =>
        obtain ⟨-, happly, -⟩ := Op.exec_service hx
        rcases apply_enqueued happly hq with hq | ⟨e, call, -, rfl⟩
        · exact hqueues hq
        · exact fun h => hne h.symm
      | stream i o =>
        rw [StreamOp.apply_svc (Op.exec_stream hx).2] at hq
        exact hqueues hq
    | launch m =>
      have hkept : ∀ {s start y q}, m.launch cfg t.shared = some (s, start) →
          q ∈ (s.svc.clientAt y).enqueued → q.sender ≠ .direct k := by
        intro s start y q hl hq
        rcases Launch.apply_svc (Launch.launch_eq_some hl).2 with heq | ⟨c, q', htake⟩
        · rw [heq] at hq
          exact hqueues hq
        · rw [take?_enqueued htake] at hq
          exact hqueues hq
      rcases step_launch hstep with ⟨s, hl, rfl⟩ | ⟨s, g, p, hl, -, rfl⟩
      · exact ⟨hnone, hkept hl⟩
      · refine ⟨?_, hkept hl⟩
        have hne : Goroutine.direct k ≠ g := by
          rintro rfl
          cases Launch.apply_started (Launch.launch_eq_some hl).2 with
          | direct k call => exact hm call rfl
        exact (Function.update_of_ne hne _ _).trans hnone
  · exact fun hq => absurd hq List.not_mem_nil

/-- Where an entry of a queue comes from. -/
theorem origin_of_queued (h : System.run u cfg (System.init maxPeers) moves = some t)
    {y : String} {q : Queued} (hq : q ∈ (t.shared.svc.clientAt y).enqueued) :
    (∃ k call, .launch (.direct k call) ∈ moves ∧ q.sender = .direct k) ∨
    ∃ i, q.sender.stream? = some i ∧ t.JoinedAs i q.event.fromClientId ∧
      (q.event.isPeerJoined = false →
        (t.shared.svc.clientAt q.event.fromClientId).progress = .answered) := by
  have ht := Relay.membership_holds h
  have hauthentic := ht.inv.svc.authentic hq
  cases hi : q.sender.stream? with
  | none =>
    left
    obtain ⟨k, hk⟩ : ∃ k, q.sender = .direct k := by
      cases hsender : q.sender with
      | direct k => exact ⟨k, rfl⟩
      | _ => simp [hsender, Goroutine.stream?] at hi
    by_contra hnot
    refine direct_absent (k := k) (fun call hcall => hnot ⟨k, call, hcall, hk⟩) h hq hk
  | some i =>
    refine Or.inr ⟨i, rfl, ?_⟩
    cases hpeer : q.event.isPeerJoined with
    | true =>
      have hcreator := (hauthentic.peerJoined hpeer).creator
      have hsend := (ht.inv.svc.creator (hcreator ▸ hi)).1
      exact ⟨joinedAs_of_creator ht hsend, by simp⟩
    | false =>
      obtain ⟨-, hcreator, hprogress⟩ := hauthentic.action hpeer i hi
      exact ⟨joinedAs_of_creator ht hcreator, fun _ => hprogress⟩

/-- The identity a peer is described with is that of the stream that joined as it. -/
theorem identity_of_describes (ht : Holds (Op.exec u) (Relay.membership u cfg) t) {i : Nat}
    {x : String} {p : PeerInfo} (hp : Describes u t.shared.svc x p) (hi : t.JoinedAs i x) :
    p.identity = identity (cfg i).principal := by
  have hstream : (t.shared.svc.clientAt x).creator.stream? = some i := by
    rw [hi.creator]
    rfl
  have hprincipal := (ht.inv.svc.creator hstream).2
  rw [hp.identity, ht.inv.svc.identity, hprincipal]

/-- Two streams join session `s1`; the token of the first is Ann's and limited to it. -/
def annAndBob : List Move :=
  List.flatten [
    .launch (.send 0 { action := some (.join { sessionId := "s1" }) }) ::
      List.replicate 19 (.run (.send 0) 0),
    .launch (.send 1 { action := some (.join { sessionId := "s1" }) }) ::
      List.replicate 21 (.run (.send 1) 0)]

def annConfig (i : Nat) : StreamConfig :=
  if i = 0 then { principal := some ⟨"ann", "", ["s1"]⟩ } else {}

/-- Events say who sent them, and peers are who they say. Whatever the streams are fed
and however their steps interleave, an event from client `x` in a queue was put there
by a goroutine of the one stream that joined as `x`, unless by a call of an embedding
server; and every `PeerJoined` and every `RoomJoined` that names `x` has the identity
of the principal that stream was opened with. -/
theorem sender_authenticity (h : System.run u cfg (System.init maxPeers) moves = some t) :
    (∀ y q, q ∈ (t.shared.svc.clientAt y).enqueued → q.event.fromClientId ≠ "" →
      (∃ k call, .launch (.direct k call) ∈ moves ∧ q.sender = .direct k) ∨
      ∃ i, q.sender.stream? = some i ∧ t.JoinedAs i q.event.fromClientId ∧
        (q.event.isPeerJoined = false →
          (t.shared.svc.clientAt q.event.fromClientId).progress = .answered) ∧
        ∀ j, t.JoinedAs j q.event.fromClientId → j = i) ∧
    (∀ y q p i, q ∈ (t.shared.svc.clientAt y).enqueued → q.event.event = .peerJoined p →
      t.JoinedAs i p.clientId → p.identity = identity (cfg i).principal) ∧
    (∀ j rj x p i, rj ∈ (t.shared.streams j).answered → (x, p) ∈ rj.room.peers →
      t.JoinedAs i x → p.clientId = x ∧ p.identity = identity (cfg i).principal) := by
  have ht := Relay.membership_holds h
  refine ⟨?_, ?_, ?_⟩
  · intro y q hq _
    rcases origin_of_queued h hq with hdirect | ⟨i, hi, hjoined, hanswered⟩
    · exact Or.inl hdirect
    · exact Or.inr ⟨i, hi, hjoined, hanswered, fun j hj => hj.unique hjoined⟩
  · intro y q p i hq hp hi
    have hpeer : q.event.isPeerJoined = true := by simp [CollabEvent.isPeerJoined, hp]
    obtain ⟨p', hp', hdescribes⟩ := ((ht.inv.svc.authentic hq).peerJoined hpeer).peer
    obtain rfl := Event.peerJoined.inj (hp.symm.trans hp')
    exact identity_of_describes ht (hdescribes.clientId.symm ▸ hdescribes) hi
  · intro j rj x p i hrj hxp hi
    have hsnapshot := (ht.inv.answered hrj).snapshot
    have hdescribes := ht.inv.svc.snapshots (hsnapshot ▸ hxp)
    exact ⟨hdescribes.clientId, identity_of_describes ht hdescribes hi⟩

/-- Ann's client has Bob's `PeerJoined` in its queue. -/
theorem sender_authenticity_annAndBob : ∃ t,
    System.run .unary annConfig (System.init 10) annAndBob = some t ∧
    ∃ q ∈ (t.shared.svc.clientAt "u").enqueued, q.event.fromClientId = "uuuu" ∧
      ∃ i, q.sender.stream? = some i ∧ t.JoinedAs i "uuuu" := by
  have hrun : (System.run .unary annConfig (System.init 10) annAndBob).any (fun t =>
      (t.shared.svc.clientAt "u").enqueued.any (·.event.fromClientId = "uuuu")) = true := by
    decide +kernel
  obtain ⟨t, ht, hq⟩ := (Option.any_eq_true _ _).mp hrun
  obtain ⟨q, hq, hfrom⟩ := List.any_eq_true.mp hq
  have hfrom : q.event.fromClientId = "uuuu" := by simpa using hfrom
  refine ⟨t, ht, q, hq, hfrom, ?_⟩
  rcases (sender_authenticity ht).1 "u" q hq (by simp [hfrom]) with
    ⟨k, call, hcall, -⟩ | ⟨i, hi, hj, -⟩
  · simp [annAndBob] at hcall
  · exact ⟨i, hi, hfrom ▸ hj⟩

/-- A client whose join came with a principal that is limited to some rooms is only
ever in a room that the principal covers. -/
theorem room_confinement (h : System.run u cfg (System.init maxPeers) moves = some t)
    {r : RoomRef} {c : String} {p : Principal}
    (hc : c ∈ (t.shared.svc.roomAt r).clients)
    (hp : (t.shared.svc.clientAt c).principal = some p) (hrooms : p.rooms ≠ []) :
    (t.shared.svc.roomAt r).sessionId ≠ "" ∧
      Covers p.rooms (t.shared.svc.roomAt r).sessionId := by
  have hallows := ((Relay.membership_holds h).inv.svc.confined hc).2
  rw [hp] at hallows
  exact (allowsRoom_iff.mp hallows).resolve_left hrooms

/-- Ann's client is in `s1`, which her token covers. -/
theorem room_confinement_annAndBob : ∃ t,
    System.run .unary annConfig (System.init 10) annAndBob = some t ∧
    "u" ∈ (t.shared.svc.roomAt 0).clients ∧ (t.shared.svc.roomAt 0).sessionId ≠ "" ∧
      Covers ["s1"] (t.shared.svc.roomAt 0).sessionId := by
  have hrun : (System.run .unary annConfig (System.init 10) annAndBob).any (fun t =>
      "u" ∈ (t.shared.svc.roomAt 0).clients ∧
        (t.shared.svc.clientAt "u").principal = some ⟨"ann", "", ["s1"]⟩) = true := by
    decide +kernel
  obtain ⟨t, ht, hstate⟩ := (Option.any_eq_true _ _).mp hrun
  obtain ⟨hc, hp⟩ := of_decide_eq_true hstate
  exact ⟨t, ht, hc, room_confinement ht hc hp (by simp)⟩

end MassRelay

import MassRelay.Server.Lift
import MassRelay.Services.Membership

/-!
# MassRelay.Server.Membership

Streams keep to the terms of the service.

A stream joins from its read loop, as the principal it was opened with, and acts only
for the client of its last `RoomJoined`: `Send` puts that client's id in every action
but a join, and the cleanups leave as it. So the relay meets `membership`
(`Relay.membership`), and what a stream knows of its joins agrees with what the
service does: `answered` are the clients its joins made, all of them once its read
loop is idle, and a bridge runs only for one of these.
-/

namespace MassRelay

open Threads CollabService

variable {u : UuidSource} {cfg : Nat → StreamConfig} {s s' : Relay} {g : Goroutine} {i : Nat}

/-! ### What a step does to what a stream knows -/

/-- A join of this stream was answered with client `c`. -/
def Stream.Has (st : Stream) (c : String) : Prop := ∃ rj ∈ st.answered, rj.clientId = c

theorem Stream.has_congr {st st' : Stream} (h : st'.answered = st.answered) : st'.Has = st.Has := by
  funext c
  rw [Stream.Has, h, Stream.Has]

def StreamOp.answers : StreamOp → List RoomJoined
  | .store rj => [rj]
  | _ => []

def StreamOp.clientIdAfter (clientId : String) : StreamOp → String
  | .store rj => rj.clientId
  | .clear => ""
  | _ => clientId

def StreamOp.bridgesAfter (bridges : String → Bridge) : StreamOp → String → Bridge
  | .goBridge c => Function.update bridges c .forwarding
  | _ => bridges

def StreamOp.sessionIdAfter (sessionId : String) : StreamOp → String
  | .store rj => rj.room.sessionId
  | .clear => ""
  | _ => sessionId

def StreamOp.onceAfter (once : Once) : StreamOp → Once
  | .onceEnter => if once = .idle then .running else once
  | .onceExit => .done
  | _ => once

def StreamOp.endedAfter (ended : Bool) : StreamOp → Bool
  | .closeEnded => true
  | _ => ended

/-- What a step on stream `i` does to the joins, the bridges and the end of the stream. -/
structure StreamEffect (i : Nat) (o : StreamOp) (s s' : Relay) : Prop where
  svc : s'.svc = s.svc
  other : ∀ {j}, j ≠ i → s'.streams j = s.streams j
  answered : (s'.streams i).answered = (s.streams i).answered ++ o.answers
  clientId : (s'.streams i).clientId = o.clientIdAfter (s.streams i).clientId
  bridges : (s'.streams i).bridges = o.bridgesAfter (s.streams i).bridges
  sessionId : (s'.streams i).sessionId = o.sessionIdAfter (s.streams i).sessionId
  endOnce : (s'.streams i).endOnce = o.onceAfter (s.streams i).endOnce
  ended : (s'.streams i).ended = o.endedAfter (s.streams i).ended
  watched : (s'.streams i).watched = (s.streams i).watched

@[simp] theorem Relay.modifyStream_self (s : Relay) (i : Nat) (f : Stream → Stream) :
    (s.modifyStream i f).streams i = f (s.streams i) :=
  Function.update_self ..

@[simp] theorem Relay.modifyStream_of_ne (s : Relay) {i j : Nat} (f : Stream → Stream)
    (h : j ≠ i) : (s.modifyStream i f).streams j = s.streams j :=
  Function.update_of_ne h ..

theorem Relay.modifyStream_modifyStream (s : Relay) (i : Nat) (f f' : Stream → Stream) :
    (s.modifyStream i f).modifyStream i f' = s.modifyStream i fun st => f' (f st) := by
  simp [Relay.modifyStream]

@[simp] theorem Relay.modifyStream_svc (s : Relay) (i : Nat) (f : Stream → Stream) :
    (s.modifyStream i f).svc = s.svc := rfl

theorem StreamEffect.modifyStream {o : StreamOp} (s : Relay) {f : Stream → Stream}
    (hanswered : (f (s.streams i)).answered = (s.streams i).answered ++ o.answers)
    (hclientId : (f (s.streams i)).clientId = o.clientIdAfter (s.streams i).clientId)
    (hbridges : (f (s.streams i)).bridges = o.bridgesAfter (s.streams i).bridges)
    (hsessionId : (f (s.streams i)).sessionId = o.sessionIdAfter (s.streams i).sessionId)
    (honce : (f (s.streams i)).endOnce = o.onceAfter (s.streams i).endOnce)
    (hended : (f (s.streams i)).ended = o.endedAfter (s.streams i).ended)
    (hwatched : (f (s.streams i)).watched = (s.streams i).watched) :
    StreamEffect i o s (s.modifyStream i f) := by
  refine ⟨rfl, fun hj => Relay.modifyStream_of_ne s f hj, ?_, ?_, ?_, ?_, ?_, ?_, ?_⟩ <;>
    rw [Relay.modifyStream_self] <;> assumption

/-- A step that leaves all of these alone. -/
theorem StreamEffect.same {o : StreamOp} (s : Relay) {s' : Relay} (hsvc : s'.svc = s.svc)
    (hstreams : s'.streams = s.streams) (hanswers : o.answers = [])
    (hclientId : ∀ c, o.clientIdAfter c = c) (hbridges : ∀ bs, o.bridgesAfter bs = bs)
    (hsessionId : ∀ sid, o.sessionIdAfter sid = sid)
    (honce : o.onceAfter (s.streams i).endOnce = (s.streams i).endOnce)
    (hended : ∀ b, o.endedAfter b = b) : StreamEffect i o s s' := by
  refine ⟨hsvc, fun _ => by rw [hstreams], ?_, ?_, ?_, ?_, ?_, ?_, ?_⟩ <;> rw [hstreams]
  · rw [hanswers, List.append_nil]
  · rw [hclientId]
  · rw [hbridges]
  · rw [hsessionId]
  · rw [honce]
  · rw [hended]

/-- Putting an item on `sendCh` changes nothing else. -/
theorem Relay.put?_cases {item : Item} (h : s.put? i item = some s') :
    ((s.streams i).sendCh.closed = true ∧ s' = { s with panicked := true }) ∨
    ((s.streams i).sendCh.closed = false ∧ ∃ ch, (s.streams i).sendCh.push? item = some ch ∧
      s' = s.modifyStream i fun st => { st with sendCh := ch, queued := st.queued ++ [item] }) := by
  unfold Relay.put? at h
  split at h
  · rename_i hclosed
    exact Or.inl ⟨hclosed, (Option.some.inj h).symm⟩
  · rename_i hclosed
    obtain ⟨ch, hpush, rfl⟩ := Option.map_eq_some_iff.mp h
    exact Or.inr ⟨Bool.eq_false_of_not_eq_true hclosed, ch, hpush, rfl⟩

theorem Relay.reply_effect {e : CollabEvent} {n : Nat} {queued : Bool}
    (h : s.reply i e n = some (s', queued)) : StreamEffect i (.reply e) s s' := by
  have hnote : ∀ {s₁}, StreamEffect i (.reply e) s s₁ →
      StreamEffect i (.reply e) s (s₁.noteReplied i e) := by
    intro s₁ hs₁
    unfold Relay.noteReplied
    split
    · refine ⟨hs₁.svc, fun hj => (Relay.modifyStream_of_ne _ _ hj).trans (hs₁.other hj), ?_, ?_, ?_,
        ?_, ?_, ?_, ?_⟩ <;> rw [Relay.modifyStream_self]
      · exact hs₁.answered
      · exact hs₁.clientId
      · exact hs₁.bridges
      · exact hs₁.sessionId
      · exact hs₁.endOnce
      · exact hs₁.ended
      · exact hs₁.watched
    · exact hs₁
  unfold Relay.reply at h
  split at h
  · obtain ⟨s₁, hput, heq⟩ := Option.map_eq_some_iff.mp h
    obtain ⟨rfl, -⟩ := Prod.mk.inj heq
    refine hnote ?_
    rcases Relay.put?_cases hput with ⟨-, rfl⟩ | ⟨-, ch, -, rfl⟩
    · exact .same s rfl rfl rfl (fun _ => rfl) (fun _ => rfl) (fun _ => rfl) rfl fun _ => rfl
    · exact .modifyStream s (List.append_nil _).symm rfl rfl rfl rfl rfl rfl
  · split at h
    · obtain ⟨rfl, -⟩ := Prod.mk.inj (Option.some.inj h)
      exact .same s rfl rfl rfl (fun _ => rfl) (fun _ => rfl) (fun _ => rfl) rfl fun _ => rfl
    · simp at h

theorem StreamOp.apply_effect {n : Nat} {o : StreamOp} {a : o.Res}
    (h : o.apply i n s = some (s', a)) : StreamEffect i o s s' := by
  cases o with
  | allow | readClientId =>
    obtain ⟨rfl, -⟩ := Prod.mk.inj (Option.some.inj h)
    exact .same s rfl rfl rfl (fun _ => rfl) (fun _ => rfl) (fun _ => rfl) rfl fun _ => rfl
  | store rj =>
    obtain ⟨rfl, -⟩ := Prod.mk.inj (Option.some.inj h)
    exact .modifyStream s rfl rfl rfl rfl rfl rfl rfl
  | goBridge c =>
    obtain ⟨rfl, -⟩ := Prod.mk.inj (Option.some.inj h)
    exact .modifyStream s (List.append_nil _).symm rfl rfl rfl rfl rfl rfl
  | reply e => exact Relay.reply_effect h
  | onceEnter =>
    simp only [StreamOp.apply] at h
    split at h
    · rename_i honce
      obtain ⟨rfl, -⟩ := Prod.mk.inj (Option.some.inj h)
      refine .modifyStream s (List.append_nil _).symm rfl rfl rfl ?_ rfl rfl
      rw [honce]
      rfl
    · simp at h
    · rename_i honce
      obtain ⟨rfl, -⟩ := Prod.mk.inj (Option.some.inj h)
      refine .same s rfl rfl rfl (fun _ => rfl) (fun _ => rfl) (fun _ => rfl) ?_ fun _ => rfl
      rw [honce]
      rfl
  | closeSendCh =>
    simp only [StreamOp.apply] at h
    split at h
    · obtain ⟨rfl, -⟩ := Prod.mk.inj (Option.some.inj h)
      exact .same s rfl rfl rfl (fun _ => rfl) (fun _ => rfl) (fun _ => rfl) rfl fun _ => rfl
    · obtain ⟨rfl, -⟩ := Prod.mk.inj (Option.some.inj h)
      exact .modifyStream s (List.append_nil _).symm rfl rfl rfl rfl rfl rfl
  | onceExit | closeEnded | clear | stopExpiry =>
    obtain ⟨rfl, -⟩ := Prod.mk.inj (Option.some.inj h)
    exact .modifyStream s (List.append_nil _).symm rfl rfl rfl rfl rfl rfl

/-- A launch leaves the joins of every stream alone, and neither starts nor forgets a
bridge. -/
structure JoinsKept (s s' : Relay) : Prop where
  answered : ∀ i, (s'.streams i).answered = (s.streams i).answered
  clientId : ∀ i, (s'.streams i).clientId = (s.streams i).clientId
  bridges : ∀ i c, (s'.streams i).bridges c = .off ↔ (s.streams i).bridges c = .off
  sessionId : ∀ i, (s'.streams i).sessionId = (s.streams i).sessionId
  endOnce : ∀ i, (s'.streams i).endOnce = (s.streams i).endOnce
  ended : ∀ i, (s'.streams i).ended = (s.streams i).ended

theorem JoinsKept.of_streams (h : s'.streams = s.streams) : JoinsKept s s' := by
  refine ⟨fun i => ?_, fun i => ?_, fun i c => ?_, fun i => ?_, fun i => ?_, fun i => ?_⟩ <;> rw [h]

theorem JoinsKept.modifyStream {f : Stream → Stream}
    (hanswered : (f (s.streams i)).answered = (s.streams i).answered)
    (hclientId : (f (s.streams i)).clientId = (s.streams i).clientId)
    (hbridges : ∀ c, (f (s.streams i)).bridges c = .off ↔ (s.streams i).bridges c = .off)
    (hsessionId : (f (s.streams i)).sessionId = (s.streams i).sessionId)
    (honce : (f (s.streams i)).endOnce = (s.streams i).endOnce)
    (hended : (f (s.streams i)).ended = (s.streams i).ended) :
    JoinsKept s (s.modifyStream i f) := by
  refine ⟨fun j => ?_, fun j => ?_, fun j c => ?_, fun j => ?_, fun j => ?_, fun j => ?_⟩
  all_goals
    by_cases hj : j = i
    · subst hj
      rw [Relay.modifyStream_self]
      first | assumption | exact hbridges c
    · rw [Relay.modifyStream_of_ne s f hj]

theorem JoinsKept.trans {s'' : Relay} (h : JoinsKept s s') (h' : JoinsKept s' s'') :
    JoinsKept s s'' :=
  ⟨fun i => (h'.answered i).trans (h.answered i), fun i => (h'.clientId i).trans (h.clientId i),
    fun i c => (h'.bridges i c).trans (h.bridges i c),
    fun i => (h'.sessionId i).trans (h.sessionId i), fun i => (h'.endOnce i).trans (h.endOnce i),
    fun i => (h'.ended i).trans (h.ended i)⟩

/-- Moving a bridge that runs to where it still has been started. -/
theorem JoinsKept.setBridge {c : String} {b : Bridge} (hold : (s.streams i).bridges c ≠ .off)
    (hnew : b ≠ .off) : JoinsKept s (s.setBridge i c b) := by
  refine .modifyStream rfl rfl (fun c' => ?_) rfl rfl rfl
  by_cases hc : c' = c
  · subst hc
    simp [hold, hnew]
  · simp [hc]

theorem Relay.put?_joinsKept {item : Item} (h : s.put? i item = some s') : JoinsKept s s' := by
  rcases Relay.put?_cases h with ⟨-, rfl⟩ | ⟨-, ch, -, rfl⟩
  · exact .of_streams rfl
  · exact .modifyStream rfl rfl (fun _ => .rfl) rfl rfl rfl

theorem BridgeEffect.joinsKept {c : String} {start : Option (Goroutine × Proc Unit)}
    (h : BridgeEffect s i c ((s.streams i).bridges c) s' start) : JoinsKept s s' := by
  generalize hb : (s.streams i).bridges c = b at h
  cases h with
  | @take _ _ _ svc _ hbb =>
    have hkept : JoinsKept s { s with svc } := .of_streams rfl
    refine hkept.trans (.setBridge ?_ ?_) <;>
      rcases hbb with ⟨rfl, rfl⟩ | ⟨rfl, rfl⟩ <;> simp [hb]
  | put hput hbb =>
    have hkept := Relay.put?_joinsKept hput
    refine hkept.trans (.setBridge ?_ ?_)
    · rw [ne_eq, hkept.bridges, hb]
      rcases hbb with ⟨rfl, -⟩ | ⟨rfl, -⟩ <;> simp
    · rcases hbb with ⟨-, rfl⟩ | ⟨-, rfl⟩ <;> simp
  | slow _ hbb =>
    refine .setBridge ?_ ?_ <;>
      rcases hbb with ⟨rfl, rfl⟩ | ⟨q, rfl, rfl⟩ <;> simp [hb]
  | stop hbb =>
    refine .setBridge ?_ ?_ <;>
      rcases hbb with ⟨rfl | ⟨q, rfl⟩, rfl⟩ | ⟨held, rfl, rfl⟩ <;> simp [hb]
  | evict => exact .setBridge (by simp [hb]) (by simp)

theorem Launch.apply_joinsKept {m : Launch} {start : Option (Goroutine × Proc Unit)}
    (h : m.apply cfg s = some (s', start)) : JoinsKept s s' := by
  cases m with
  | recv i =>
    obtain ⟨s₁, hrecv, heq⟩ := Option.map_eq_some_iff.mp h
    obtain ⟨rfl, -⟩ := Prod.mk.inj heq
    obtain ⟨⟨item, ch⟩, -, rfl⟩ := Option.map_eq_some_iff.mp hrecv
    exact .modifyStream rfl rfl (fun _ => .rfl) rfl rfl rfl
  | bridge i c choice => exact (Relay.bridgeStep_effect h).joinsKept
  | watchClose i | expire i =>
    simp only [Launch.apply] at h
    split at h
    · obtain ⟨rfl, -⟩ := Prod.mk.inj (Option.some.inj h)
      exact .modifyStream rfl rfl (fun _ => .rfl) rfl rfl rfl
    · simp at h
  | cancel i =>
    obtain ⟨rfl, -⟩ := Prod.mk.inj (Option.some.inj h)
    exact .modifyStream rfl rfl (fun _ => .rfl) rfl rfl rfl
  | send _ _ | closeSend _ _ | direct _ _ =>
    obtain ⟨rfl, -⟩ := Prod.mk.inj (Option.some.inj h)
    exact .of_streams rfl

/-- What a stream keeps where another is modified, or this one elsewhere. -/
theorem Relay.modifyStream_field {α : Type} {φ : Stream → α} {f : Stream → Stream}
    (hf : φ (f (s.streams i)) = φ (s.streams i)) (j : Nat) :
    φ ((s.modifyStream i f).streams j) = φ (s.streams j) := by
  by_cases hj : j = i
  · subst hj
    rw [Relay.modifyStream_self, hf]
  · rw [Relay.modifyStream_of_ne s f hj]

theorem BridgeEffect.watched {c : String} {b : Bridge} {start : Option (Goroutine × Proc Unit)}
    (h : BridgeEffect s i c b s' start) (j : Nat) :
    (s'.streams j).watched = (s.streams j).watched := by
  have hset : ∀ {s : Relay} {b}, ((s.setBridge i c b).streams j).watched = (s.streams j).watched :=
    Relay.modifyStream_field (φ := Stream.watched) rfl j
  cases h with
  | put hput _ =>
    rcases Relay.put?_cases hput with ⟨-, rfl⟩ | ⟨-, ch, -, rfl⟩
    · exact hset
    · exact hset.trans (Relay.modifyStream_field (φ := Stream.watched) rfl j)
  | take _ _ | slow _ _ | stop _ | evict => exact hset

/-- `watchClose` is started when its stream comes to be watched. -/
theorem Launch.apply_watched {m : Launch} {start : Option (Goroutine × Proc Unit)}
    (h : m.apply cfg s = some (s', start)) :
    (s'.streams i).watched = true ↔
      (s.streams i).watched = true ∨ ∃ p, start = some (.watchClose i, p) := by
  have hsame : (s'.streams i).watched = (s.streams i).watched →
      (∀ p, start ≠ some (.watchClose i, p)) → ((s'.streams i).watched = true ↔
        (s.streams i).watched = true ∨ ∃ p, start = some (.watchClose i, p)) := by
    intro hwatched hstart
    rw [hwatched]
    exact ⟨Or.inl, fun h => h.resolve_right fun ⟨p, hp⟩ => hstart p hp⟩
  cases m with
  | recv j =>
    obtain ⟨s₁, hrecv, heq⟩ := Option.map_eq_some_iff.mp h
    obtain ⟨rfl, rfl⟩ := Prod.mk.inj heq
    obtain ⟨⟨item, ch⟩, -, rfl⟩ := Option.map_eq_some_iff.mp hrecv
    exact hsame (Relay.modifyStream_field (φ := Stream.watched) rfl i) (by simp)
  | bridge j c choice =>
    have heffect := Relay.bridgeStep_effect h
    refine hsame (heffect.watched i) ?_
    rintro p rfl
    exact absurd heffect.start.1 (by simp)
  | watchClose j =>
    simp only [Launch.apply] at h
    split at h
    · obtain ⟨rfl, rfl⟩ := Prod.mk.inj (Option.some.inj h)
      by_cases hj : i = j
      · subst hj
        simp
      · rw [Relay.modifyStream_of_ne _ _ hj]
        simp [Ne.symm hj]
    · simp at h
  | expire j =>
    simp only [Launch.apply] at h
    split at h
    · obtain ⟨rfl, rfl⟩ := Prod.mk.inj (Option.some.inj h)
      exact hsame (Relay.modifyStream_field (φ := Stream.watched) rfl i) (by simp)
    · simp at h
  | cancel j =>
    obtain ⟨rfl, rfl⟩ := Prod.mk.inj (Option.some.inj h)
    exact hsame (Relay.modifyStream_field (φ := Stream.watched) rfl i) (by simp)
  | send _ _ | closeSend _ _ | direct _ _ =>
    obtain ⟨rfl, rfl⟩ := Prod.mk.inj (Option.some.inj h)
    exact hsame rfl (by simp)

/-! ### The terms -/

/-- What holds of an answer that stream `i` got. -/
structure AnsweredBy (u : UuidSource) (i : Nat) (rj : RoomJoined) (svc : CollabService) :
    Prop where
  issued : Issued u svc rj.clientId
  named : (svc.clientAt rj.clientId).info.clientId = rj.clientId
  creator : (svc.clientAt rj.clientId).creator = .send i
  progress : (svc.clientAt rj.clientId).progress = .answered
  snapshot : (svc.clientAt rj.clientId).snapshot = rj.room.peers
  session : (svc.clientAt rj.clientId).sessionId = rj.room.sessionId
  nonempty : rj.room.sessionId ≠ ""

theorem AnsweredBy.grow {svc svc' : CollabService} {rj : RoomJoined} (hgrow : Grow u svc svc')
    (hanswered : ∀ {c}, Issued u svc c → (svc.clientAt c).progress = .answered →
      (svc'.clientAt c).progress = .answered) (h : AnsweredBy u i rj svc) :
    AnsweredBy u i rj svc' where
  issued := h.issued.mono hgrow.nextUuid
  named := (hgrow.client h.issued).clientId.trans h.named
  creator := (hgrow.client h.issued).creator.trans h.creator
  progress := hanswered h.issued h.progress
  snapshot := (hgrow.client h.issued).snapshot.trans h.snapshot
  session := (hgrow.client h.issued).sessionId.trans h.session
  nonempty := h.nonempty

namespace Relay

/-- What the streams know agrees with the service. -/
structure Members (u : UuidSource) (cfg : Nat → StreamConfig) (s : Relay) : Prop where
  svc : CollabService.Members u (fun i => (cfg i).principal) s.svc
  answered : ∀ {i rj}, rj ∈ (s.streams i).answered → AnsweredBy u i rj s.svc
  clientId : ∀ i, (s.streams i).clientId = "" ∨ (s.streams i).Has (s.streams i).clientId
  bridges : ∀ {i c}, (s.streams i).bridges c ≠ .off → (s.streams i).Has c

/-- What a goroutine can count on: only the read loop of a stream joins and starts
bridges on it. -/
structure MemberRely (u : UuidSource) (g : Goroutine) (s s' : Relay) : Prop where
  svc : CollabService.MemberRely u g s.svc s'.svc
  answered : ∀ {i}, g = .send i → (s'.streams i).answered = (s.streams i).answered
  bridges : ∀ {i c}, g = .send i → (s.streams i).bridges c = .off →
    (s'.streams i).bridges c = .off

/-- What holds before a step on stream `i`. -/
def StreamRequires (u : UuidSource) (g : Goroutine) (i : Nat) (s : Relay) : StreamOp → Prop
  | .store rj => g = .send i ∧ AnsweredBy u i rj s.svc ∧ ¬ (s.streams i).Has rj.clientId
  | .goBridge c => g = .send i ∧ (s.streams i).Has c ∧ (s.streams i).bridges c = .off
  | _ => True

/-- How the goroutines of the relay share the clients. Between its `Send` calls a read
loop has made no client but those its joins were answered with. -/
def membership (u : UuidSource) (cfg : Nat → StreamConfig) :
    Protocol Relay Goroutine Op Launch where
  inv := Members u cfg
  rely := MemberRely u
  idle g s := ∀ i, g = .send i → Owns g (s.streams i).Has s.svc
  req g o s :=
    match o with
    | .service o => Requires u (fun i => (cfg i).principal) g s.svc o
    | .stream i o => g.stream? = some i ∧ StreamRequires u g i s o
  ok _ _ _ _ := True
  okLaunch _ _ := True

/-! ### Every step keeps the terms -/

theorem Members.service {n : Nat} {o : ServiceOp} {a : o.Res} (hs : Members u cfg s)
    (hreq : Requires u (fun i => (cfg i).principal) g s.svc o)
    (h : (Op.service o).exec u g n s = some (s', a)) : Members u cfg s' := by
  obtain ⟨-, happly, heq⟩ := Op.exec_service h
  have hgrow := (CollabService.apply_effect happly).grow
  rw [heq]
  refine ⟨hs.svc.step hreq happly, ?_, hs.clientId, hs.bridges⟩
  intro i rj hrj
  exact (hs.answered hrj).grow hgrow fun hc hp => answered_of_requires hreq happly hc hp

theorem Members.stream {n : Nat} {o : StreamOp} {a : o.Res} (hs : Members u cfg s)
    (hreq : StreamRequires u g i s o) (h : (Op.stream i o).exec u g n s = some (s', a)) :
    Members u cfg s' := by
  have heffect := StreamOp.apply_effect (Op.exec_stream h).2
  have hhas : ∀ {j c}, (s.streams j).Has c → (s'.streams j).Has c := by
    rintro j c ⟨rj, hrj, hc⟩
    by_cases hj : j = i
    · subst hj
      exact ⟨rj, heffect.answered ▸ List.mem_append_left _ hrj, hc⟩
    · exact ⟨rj, (heffect.other hj).symm ▸ hrj, hc⟩
  refine ⟨heffect.svc ▸ hs.svc, ?_, ?_, ?_⟩
  · intro j rj hrj
    rw [heffect.svc]
    by_cases hj : j = i
    · subst hj
      rw [heffect.answered] at hrj
      rcases List.mem_append.mp hrj with hrj | hrj
      · exact hs.answered hrj
      -- the one answer that is new is the one being stored
      · cases o with
        | store rj' =>
          obtain rfl := List.mem_singleton.mp hrj
          exact hreq.2.1
        | _ => simp [StreamOp.answers] at hrj
    · rw [heffect.other hj] at hrj
      exact hs.answered hrj
  · intro j
    by_cases hj : j = i
    · subst hj
      rw [heffect.clientId]
      cases o with
      | store rj =>
        exact Or.inr
          ⟨rj, heffect.answered ▸ List.mem_append_right _ (List.mem_singleton_self _), rfl⟩
      | clear => exact Or.inl rfl
      | _ => exact (hs.clientId j).imp_right hhas
    · rw [heffect.other hj]
      exact hs.clientId j
  · intro j c hc
    by_cases hj : j = i
    · subst hj
      rw [heffect.bridges] at hc
      cases o with
      | goBridge c' =>
        by_cases hcc : c = c'
        · subst hcc
          exact hhas hreq.2.1
        · exact hhas (hs.bridges (by simpa [StreamOp.bridgesAfter, hcc] using hc))
      | _ => exact hhas (hs.bridges hc)
    · rw [heffect.other hj] at hc
      exact hhas (hs.bridges hc)

theorem MemberRely.refl (u : UuidSource) (g : Goroutine) (s : Relay) : MemberRely u g s s :=
  ⟨.refl u g s.svc, fun _ => rfl, fun _ h => h⟩

theorem MemberRely.trans {s'' : Relay} (h : MemberRely u g s s') (h' : MemberRely u g s' s'') :
    MemberRely u g s s'' :=
  ⟨h.svc.trans h'.svc, fun hg => (h'.answered hg).trans (h.answered hg),
    fun hg hoff => h'.bridges hg (h.bridges hg hoff)⟩

theorem MemberRely.service {g' : Goroutine} {n : Nat} {o : ServiceOp} {a : o.Res}
    (hreq : Requires u (fun i => (cfg i).principal) g s.svc o)
    (h : (Op.service o).exec u g n s = some (s', a)) (hne : g' ≠ g) : MemberRely u g' s s' := by
  obtain ⟨-, happly, heq⟩ := Op.exec_service h
  rw [heq]
  exact ⟨.of_apply hreq happly hne, fun _ => rfl, fun _ h => h⟩

theorem MemberRely.stream {g' : Goroutine} {n : Nat} {o : StreamOp} {a : o.Res}
    (hreq : StreamRequires u g i s o) (h : (Op.stream i o).exec u g n s = some (s', a))
    (hne : g' ≠ g) : MemberRely u g' s s' := by
  have heffect := StreamOp.apply_effect (Op.exec_stream h).2
  refine ⟨heffect.svc ▸ .refl u g' s.svc, ?_, ?_⟩
  · rintro j rfl
    by_cases hj : j = i
    · subst hj
      rw [heffect.answered]
      cases o with
      | store rj => exact absurd hreq.1.symm hne
      | _ => exact List.append_nil _
    · rw [heffect.other hj]
  · rintro j c rfl hoff
    by_cases hj : j = i
    · subst hj
      rw [heffect.bridges]
      cases o with
      | goBridge c' => exact absurd hreq.1.symm hne
      | _ => exact hoff
    · rw [heffect.other hj]
      exact hoff

theorem MemberRely.launch {m : Launch} {start : Option (Goroutine × Proc Unit)}
    (h : m.apply cfg s = some (s', start)) : MemberRely u g s s' := by
  have hkept := Launch.apply_joinsKept h
  refine ⟨?_, fun _ => hkept.answered _, fun _ hoff => (hkept.bridges _ _).mpr hoff⟩
  rcases Launch.apply_svc h with heq | ⟨c, q, htake⟩
  · rw [heq]
    exact .refl u g s.svc
  · exact .take? htake

theorem Members.launch {m : Launch} {start : Option (Goroutine × Proc Unit)}
    (hs : Members u cfg s) (h : m.apply cfg s = some (s', start)) : Members u cfg s' := by
  have hkept := Launch.apply_joinsKept h
  have hrely : MemberRely u (.direct 0) s s' := .launch h
  have hhas : ∀ {j c}, (s'.streams j).Has c ↔ (s.streams j).Has c := by
    intro j c
    rw [Stream.has_congr (hkept.answered j)]
  refine ⟨?_, ?_, ?_, ?_⟩
  · rcases Launch.apply_svc h with heq | ⟨c, q, htake⟩
    · rw [heq]
      exact hs.svc
    · exact hs.svc.take? htake
  · intro i rj hrj
    rw [hkept.answered] at hrj
    exact (hs.answered hrj).grow hrely.svc.toGrow hrely.svc.answered
  · intro i
    rw [hhas, hkept.clientId]
    exact hs.clientId i
  · intro i c hc
    rw [hhas]
    exact hs.bridges fun hoff => hc ((hkept.bridges i c).mpr hoff)

/-- A goroutine of a stream can act for the client the stream remembers. -/
theorem Members.actsFor (hs : Members u cfg s) (hg : g.stream? = some i)
    (hid : (s.streams i).clientId ≠ "") : ActsFor u g (s.streams i).clientId s.svc := by
  intro j hj
  obtain rfl : i = j := Option.some.inj (hg.symm.trans hj)
  obtain ⟨rj, hrj, hc⟩ := (hs.clientId i).resolve_left hid
  rw [← hc]
  exact ⟨(hs.answered hrj).issued, (hs.answered hrj).creator, (hs.answered hrj).progress⟩

/-- No two streams have the same client. -/
theorem Members.has_unique {j : Nat} {c : String} (hs : Members u cfg s)
    (hi : (s.streams i).Has c) (hj : (s.streams j).Has c) : i = j := by
  obtain ⟨rj, hrj, rfl⟩ := hi
  obtain ⟨rj', hrj', hc⟩ := hj
  have hcreator := (hs.answered hrj').creator
  rw [hc, (hs.answered hrj).creator] at hcreator
  exact Goroutine.send.inj hcreator

/-- Only the clients of a stream have bridges on it. -/
theorem Members.bridges_off {c : String} (hs : Members u cfg s)
    (hc : c ∉ (s.streams i).answered.map (·.clientId)) : (s.streams i).bridges c = .off := by
  by_contra hoff
  obtain ⟨rj, hrj, rfl⟩ := hs.bridges hoff
  exact hc (List.mem_map_of_mem (f := RoomJoined.clientId) hrj)

/-! ### The methods of a stream -/

section Rules

variable {α : Type}

/-- The rule of a step on a stream. -/
theorem stream_wp {o : StreamOp} {A : Relay → Prop} {Q : o.Res → Relay → Prop}
    (hg : g.stream? = some i) (hA : A s) (hstable : ∀ {s₁}, MemberRely u g s s₁ → A s → A s₁)
    (hreq : ∀ {s}, Members u cfg s → A s → StreamRequires u g i s o)
    (hpost : ∀ {n s s' a}, Members u cfg s → A s → o.apply i n s = some (s', a) →
      Members u cfg s' → Q a s') :
    wp (Op.exec u) (membership u cfg) g (Stream.perform i o) Q s := by
  refine wp_op hA hstable (fun hinv hA => ⟨hg, hreq hinv hA⟩) ?_
  intro n s₁ s₂ a hinv hA _ hx
  have hinv₂ := hinv.stream (hreq hinv hA) hx
  exact ⟨hinv₂, hpost hinv hA (Op.exec_stream hx).2 hinv₂⟩

/-- A step that neither joins nor starts a bridge. -/
theorem plain_wp {o : StreamOp} (hg : g.stream? = some i)
    (ho : ∀ {s}, StreamRequires u g i s o) :
    wp (Op.exec u) (membership u cfg) g (Stream.perform i o) (fun _ _ => True) s :=
  stream_wp hg (A := fun _ => True) trivial (fun _ _ => trivial) (fun _ _ => ho)
    fun _ _ _ _ => trivial

theorem membership_part :
    Part (ServiceOp.exec u) (CollabService.membership u fun i => (cfg i).principal) (Op.exec u)
      (membership u cfg) .service (fun _ r => r) Relay.svc g where
  rely h := h.svc
  inv h := h.svc
  req h := h
  ok _ _ := trivial
  exec h := Op.exec_service_exec h
  keep hinv hreq _ hx _ := hinv.service hreq hx

/-- The rule of a call: it does to the service what it does, and leaves the streams
alone. -/
theorem call_wp {call : Call α} {Q : α → CollabService → Prop} {B : Relay → Prop}
    (hcall : wp (ServiceOp.exec u) (CollabService.membership u fun i => (cfg i).principal) g call Q
      s.svc)
    (hstable : ∀ {s s'}, MemberRely u g s s' → B s → B s')
    (hB : ∀ {s svc}, B s → B { s with svc }) (hs : B s) :
    wp (Op.exec u) (membership u cfg) g call.proc (fun a s => Q a s.svc ∧ B s) s := by
  refine wp_embed membership_part hstable ?_ hcall hs
  intro n o s₁ s₂ r _ _ hs hx
  rw [(Op.exec_service hx).2.2]
  exact hB hs

/-- A call about which nothing is to be said. -/
theorem call_plain_wp {call : Call α}
    (hcall : wp (ServiceOp.exec u) (CollabService.membership u fun i => (cfg i).principal) g call
      (fun _ _ => True) s.svc) :
    wp (Op.exec u) (membership u cfg) g call.proc (fun _ _ => True) s :=
  wp_mono (fun _ _ _ => trivial)
    (call_wp (B := fun _ => True) hcall (fun _ _ => trivial) (fun _ => trivial) trivial)

theorem uuid_wp :
    wp (Op.exec u) (membership u cfg) g Call.uuid.proc (fun _ _ => True) s :=
  call_plain_wp (steady_keeps (K := fun _ => True) (fun _ _ => trivial) rfl s.svc trivial)

theorem reply_wp {e : CollabEvent} (hg : g.stream? = some i) :
    wp (Op.exec u) (membership u cfg) g (Stream.reply i e) (fun _ _ => True) s :=
  wp_bind (wp_mono (fun _ _ _ => trivial) (plain_wp hg trivial))

theorem leaveAndCleanup_wp {reason : String} (hg : g.stream? = some i) :
    wp (Op.exec u) (membership u cfg) g (Stream.leaveAndCleanup i reason) (fun _ _ => True) s := by
  refine wp_bind (stream_wp hg (A := fun _ => True) trivial (fun _ _ => trivial)
    (fun _ _ => trivial) ?_)
  intro n s₁ s₂ ids hinv _ hx _
  have hsvc := StreamOp.apply_svc hx
  obtain ⟨-, rfl⟩ := Prod.mk.inj (Option.some.inj hx)
  dsimp only
  split
  · rename_i hids
    have hacts : ActsFor u g (s₁.streams i).clientId s₂.svc := by
      rw [hsvc]
      exact hinv.actsFor hg hids.2
    refine wp_bind (wp_mono (fun _ _ _ => trivial) (call_plain_wp ?_))
    have howns : Owns g (fun _ => True) s₂.svc := fun _ _ => trivial
    exact wp_mono (fun _ _ _ => trivial) (handleAction_wp hacts howns)
  · trivial

theorem endSession_wp {reason : String} (hg : g.stream? = some i) :
    wp (Op.exec u) (membership u cfg) g (Stream.endSession i reason) (fun _ _ => True) s := by
  refine wp_bind (wp_mono ?_ (plain_wp hg trivial))
  intro first s₁ _
  split
  · refine wp_bind (wp_mono ?_ (leaveAndCleanup_wp hg))
    intro _ s₂ _
    refine wp_bind (wp_mono ?_ uuid_wp)
    intro _ s₃ _
    refine wp_bind (wp_mono ?_ (reply_wp hg))
    intro _ s₄ _
    exact wp_bind (wp_mono (fun _ _ _ => plain_wp hg trivial) (plain_wp hg trivial))
  · trivial

theorem watchClose_wp :
    wp (Op.exec u) (membership u cfg) (.watchClose i) (Stream.watchClose (cfg i) i)
      (fun _ _ => True) s := by
  refine wp_bind ?_
  unfold Prog.onlyIf
  split
  · exact wp_mono (fun _ _ _ => leaveAndCleanup_wp rfl) (plain_wp rfl trivial)
  · exact leaveAndCleanup_wp rfl

theorem closeSend_wp {k : Nat} :
    wp (Op.exec u) (membership u cfg) (.closeSend i k) (Stream.closeSend i) (fun _ _ => True) s :=
  wp_bind (wp_mono (fun _ _ _ => plain_wp rfl trivial) (leaveAndCleanup_wp rfl))

/-! ### `Send` -/

/-- Between two steps of a `Send` of stream `i` that has got the answers `rjs` so far. -/
structure Sending (u : UuidSource) (i : Nat) (rjs : List RoomJoined) (s : Relay) : Prop where
  answered : (s.streams i).answered = rjs
  owns : Owns (.send i) (s.streams i).Has s.svc

theorem Sending.rely {rjs : List RoomJoined} (h : MemberRely u (.send i) s s')
    (hs : Sending u i rjs s) : Sending u i rjs s' := by
  have heq := h.answered (i := i) rfl
  refine ⟨heq.trans hs.answered, fun c hc => ?_⟩
  rw [Stream.has_congr heq]
  exact hs.owns c (h.svc.made hc)

/-- A step of the read loop on its stream that joins nothing. -/
theorem sending_wp {rjs : List RoomJoined} {o : StreamOp} (ho : o.answers = [])
    (hreq : ∀ {s}, StreamRequires u (.send i) i s o) (hs : Sending u i rjs s) :
    wp (Op.exec u) (membership u cfg) (.send i) (Stream.perform i o)
      (fun _ => Sending u i rjs) s := by
  refine stream_wp rfl hs Sending.rely (fun _ _ => hreq) ?_
  intro n s₁ s₂ a _ hs hx _
  have heffect := StreamOp.apply_effect hx
  have heq : (s₂.streams i).answered = (s₁.streams i).answered := by
    rw [heffect.answered, ho, List.append_nil]
  refine ⟨heq.trans hs.answered, fun c hc => ?_⟩
  rw [heffect.svc] at hc
  rw [Stream.has_congr heq]
  exact hs.owns c hc

theorem reply_sending {rjs : List RoomJoined} {e : CollabEvent} (hs : Sending u i rjs s) :
    wp (Op.exec u) (membership u cfg) (.send i) (Stream.reply i e)
      (fun _ => Sending u i rjs) s :=
  wp_bind (wp_mono (fun _ _ h => h) (sending_wp rfl trivial hs))

/-- A plain call of the read loop. -/
theorem call_sending {rjs : List RoomJoined} {call : Call α}
    (hcall : ∀ known, Keeps (ServiceOp.exec u)
      (CollabService.membership u fun i => (cfg i).principal) (.send i) (Owns (.send i) known) call)
    (hs : Sending u i rjs s) :
    wp (Op.exec u) (membership u cfg) (.send i) call.proc (fun _ => Sending u i rjs) s := by
  refine wp_mono ?_ (call_wp (B := fun s => (s.streams i).answered = rjs)
    (hcall (s.streams i).Has s.svc hs.owns) (fun h hs => (h.answered rfl).trans hs)
    (fun hs => hs) hs.answered)
  rintro a s₁ ⟨howns, hs₁⟩
  refine ⟨hs₁, ?_⟩
  rw [Stream.has_congr (hs₁.trans hs.answered.symm)]
  exact howns

/-- A join of the read loop came back with a client that is not among the answers `rjs`
yet. -/
structure Returned (u : UuidSource) (i : Nat) (rjs : List RoomJoined) (rj : RoomJoined)
    (s : Relay) : Prop where
  answered : (s.streams i).answered = rjs
  new : ∀ rj' ∈ rjs, rj'.clientId ≠ rj.clientId
  joined : AnsweredBy u i rj s.svc
  owns : Owns (.send i) (fun c => (∃ rj' ∈ rjs, rj'.clientId = c) ∨ c = rj.clientId) s.svc

theorem Returned.rely {rjs : List RoomJoined} {rj : RoomJoined} (h : MemberRely u (.send i) s s')
    (hs : Returned u i rjs rj s) : Returned u i rjs rj s' :=
  ⟨(h.answered rfl).trans hs.answered, hs.new, hs.joined.grow h.svc.toGrow h.svc.answered,
    fun c hc => hs.owns c (h.svc.made hc)⟩

/-- The ids are stored and the bridge is started. -/
theorem startBridge_wp {rjs : List RoomJoined} {rj : RoomJoined} (hs : Returned u i rjs rj s) :
    wp (Op.exec u) (membership u cfg) (.send i) (Stream.startBridge i rj)
      (fun _ => Sending u i (rjs ++ [rj])) s := by
  have hnew : ∀ {s : Relay}, Returned u i rjs rj s → ¬ (s.streams i).Has rj.clientId := by
    rintro s hs ⟨rj', hrj', hc⟩
    rw [hs.answered] at hrj'
    exact hs.new rj' hrj' hc
  have hgetClient : ∀ known, Keeps (ServiceOp.exec u)
      (CollabService.membership u fun i => (cfg i).principal) (.send i) (Owns (.send i) known)
      (Call.getClient rj.room.sessionId rj.clientId) := by
    intro known
    refine .bind (steady_keeps Owns.steady rfl) fun room => ?_
    cases room with
    | none => exact .ret _
    | some r => exact steady_keeps Owns.steady rfl
  -- the bridge is off until this stream has the client, and nobody else turns it on
  let B : Relay → Prop := fun s => Sending u i (rjs ++ [rj]) s ∧
    (s.streams i).bridges rj.clientId = .off
  have hB : ∀ {s s'}, MemberRely u (.send i) s s' → B s → B s' :=
    fun h hs => ⟨hs.1.rely h, h.bridges rfl hs.2⟩
  refine wp_bind (stream_wp rfl hs Returned.rely (fun _ hs => ⟨rfl, hs.joined, hnew hs⟩) ?_)
  intro n s₁ s₂ _ hinv hs₁ hx _
  have heffect := StreamOp.apply_effect hx
  have hanswered : (s₂.streams i).answered = rjs ++ [rj] := by
    rw [heffect.answered, hs₁.answered]
    rfl
  have hB₂ : B s₂ := by
    refine ⟨⟨hanswered, fun c hc => ?_⟩, ?_⟩
    · rw [heffect.svc] at hc
      rcases hs₁.owns c hc with ⟨rj', hrj', hc'⟩ | rfl
      · exact ⟨rj', hanswered ▸ List.mem_append_left _ hrj', hc'⟩
      · exact ⟨rj, hanswered ▸ List.mem_append_right _ (List.mem_singleton_self _), rfl⟩
    · rw [heffect.bridges]
      by_contra hoff
      exact hnew hs₁ (hinv.bridges hoff)
  refine wp_bind (wp_mono ?_ (call_wp (B := fun s => (s.streams i).answered = rjs ++ [rj] ∧
    (s.streams i).bridges rj.clientId = .off) (hgetClient (s₂.streams i).Has s₂.svc hB₂.1.owns)
    (fun h hs => ⟨(h.answered rfl).trans hs.1, h.bridges rfl hs.2⟩) (fun hs => hs)
    ⟨hanswered, hB₂.2⟩))
  rintro found s₃ ⟨howns, hanswered₃, hoff₃⟩
  have hB₃ : B s₃ := by
    refine ⟨⟨hanswered₃, ?_⟩, hoff₃⟩
    rw [Stream.has_congr (hanswered₃.trans hanswered.symm)]
    exact howns
  unfold Prog.onlyIf
  split
  · refine stream_wp rfl hB₃ hB ?_ ?_
    · intro s _ hs
      exact ⟨rfl,
        ⟨rj, hs.1.answered ▸ List.mem_append_right _ (List.mem_singleton_self _), rfl⟩, hs.2⟩
    · intro n s₄ s₅ _ _ hs₄ hx _
      have heffect := StreamOp.apply_effect hx
      have heq : (s₅.streams i).answered = (s₄.streams i).answered := by
        rw [heffect.answered]
        exact List.append_nil _
      refine ⟨heq.trans hs₄.1.answered, fun c hc => ?_⟩
      rw [heffect.svc] at hc
      rw [Stream.has_congr heq]
      exact hs₄.1.owns c hc
  · exact hB₃.1

theorem Sending.idle {rjs : List RoomJoined} (hs : Sending u i rjs s) :
    (membership u cfg).idle (.send i) s := by
  intro j hj
  obtain rfl := Goroutine.send.inj hj
  exact hs.owns

/-- What `HandleAction` came to, as the read loop sees it. -/
theorem handled_cases {rjs : List RoomJoined} {m : Nat} {a : CollabAction} {answer : Answer}
    (hold : ∀ rj ∈ rjs, ∃ k < m, rj.clientId = u.new k)
    (hanswered : (s.streams i).answered = rjs)
    (h : Handled u (.send i) m (fun c => ∃ rj ∈ rjs, rj.clientId = c) a answer s.svc) :
    (Sending u i rjs s ∧ (Stream.isJoin a.action = false ∨ roomJoined? answer = none)) ∨
    ∃ rj, roomJoined? answer = some rj ∧ Stream.isJoin a.action = true ∧
      Returned u i rjs rj s := by
  have hsending : Owns (.send i) (fun c => ∃ rj ∈ rjs, rj.clientId = c) s.svc →
      Sending u i rjs s := fun howns => ⟨hanswered, fun c hc => by
    rw [Stream.Has, hanswered]
    exact howns c hc⟩
  unfold Handled at h
  split at h
  · rename_i join haction
    unfold CollabService.Joined at h
    split at h
    · rename_i rj hrj
      refine Or.inr ⟨rj, hrj, by rw [haction]; rfl, hanswered, ?_, ?_, h.owns⟩
      · intro rj' hrj' hc
        -- ids are handed out in order, so the new one is none of the old
        obtain ⟨k, hk, hkc⟩ := hold rj' hrj'
        obtain ⟨k', hk', hkc'⟩ := h.fresh
        have := u.new_injective (hkc.symm.trans (hc.trans hkc'))
        omega
      · exact ⟨h.issued, h.named, h.creator, h.progress, h.snapshot, h.session, h.nonempty⟩
    · rename_i hnone
      exact Or.inl ⟨hsending h, Or.inr hnone⟩
  · rename_i hnot
    refine Or.inl ⟨hsending h, Or.inl ?_⟩
    unfold Stream.isJoin
    split
    · rename_i join haction
      exact absurd haction (hnot join)
    · rfl

theorem sendAnswer_wp {rjs : List RoomJoined} {a : CollabAction} {answer : Answer}
    (h : (Sending u i rjs s ∧ (Stream.isJoin a.action = false ∨ roomJoined? answer = none)) ∨
      ∃ rj, roomJoined? answer = some rj ∧ Stream.isJoin a.action = true ∧
        Returned u i rjs rj s) :
    wp (Op.exec u) (membership u cfg) (.send i)
      (Stream.sendAnswer i (Stream.isJoin a.action) answer)
      (fun _ => (membership u cfg).idle (.send i)) s := by
  cases answer with
  | err message =>
    rcases h with ⟨hs, -⟩ | ⟨rj, hrj, -⟩
    · exact hs.idle
    · simp [roomJoined?] at hrj
  | nothing =>
    rcases h with ⟨hs, -⟩ | ⟨rj, hrj, -⟩
    · exact hs.idle
    · simp [roomJoined?] at hrj
  | event e =>
    rcases h with ⟨hs, hnot⟩ | ⟨rj, hrj, hjoin, hs⟩
    -- this is no join, or it has no `RoomJoined`, so no bridge is started
    · have hnote : Stream.noteJoined i (Stream.isJoin a.action) e = .ret () := by
        unfold Stream.noteJoined
        split
        · rename_i rj he
          rcases hnot with hnot | hnot
          · rw [hnot]
            rfl
          · obtain ⟨eventId, fromClientId, event⟩ := e
            dsimp only at he
            subst he
            simp [roomJoined?] at hnot
        · rfl
      simp only [Stream.sendAnswer, hnote, Prog.ret_bind]
      exact wp_mono (fun _ _ hs => hs.idle) (reply_sending hs)
    · obtain ⟨eventId, fromClientId, event⟩ := e
      have hevent : event = .roomJoined rj := by
        unfold roomJoined? at hrj
        split at hrj
        · rename_i heq
          obtain rfl := Option.some.inj hrj
          have := Answer.event.inj heq
          exact (CollabEvent.mk.inj this).2.2
        · simp at hrj
      subst hevent
      simp only [Stream.sendAnswer, Stream.noteJoined, hjoin, Prog.onlyIf]
      refine wp_bind (wp_mono (fun _ _ hs => ?_) (startBridge_wp hs))
      exact wp_mono (fun _ _ hs => hs.idle) (reply_sending hs)

theorem sendAction_wp {rjs : List RoomJoined} {a : CollabAction} (hinv : Members u cfg s)
    (hcall : MayCall u (fun i => (cfg i).principal) (.send i) (cfg i).principal a s.svc)
    (hs : Sending u i rjs s) :
    wp (Op.exec u) (membership u cfg) (.send i) (Stream.sendAction (cfg i) i a)
      (fun _ => (membership u cfg).idle (.send i)) s := by
  have howns : Owns (.send i) (fun c => ∃ rj ∈ rjs, rj.clientId = c) s.svc := by
    intro c hc
    have := hs.owns c hc
    rwa [Stream.Has, hs.answered] at this
  have hold : ∀ rj ∈ rjs, ∃ k < s.svc.nextUuid, rj.clientId = u.new k := by
    intro rj hrj
    rw [← hs.answered] at hrj
    exact (hinv.answered hrj).issued
  refine wp_bind (wp_mono ?_ (call_wp (B := fun s => (s.streams i).answered = rjs)
    (handleAction_wp hcall howns) (fun h hs => (h.answered rfl).trans hs) (fun hs => hs)
    hs.answered))
  rintro answer s₁ ⟨hhandled, hs₁⟩
  exact sendAnswer_wp (handled_cases hold hs₁ hhandled)

theorem refuse_sending {rjs : List RoomJoined} {code message : String} (hs : Sending u i rjs s) :
    wp (Op.exec u) (membership u cfg) (.send i) (Stream.refuse i code message)
      (fun _ => (membership u cfg).idle (.send i)) s := by
  refine wp_bind (wp_mono ?_ (call_sending (fun known => steady_keeps Owns.steady rfl) hs))
  intro _ s₁ hs₁
  exact wp_mono (fun _ _ hs => hs.idle) (reply_sending hs₁)

theorem sendChecked_wp {rjs : List RoomJoined} {a : CollabAction} (hs : Sending u i rjs s) :
    wp (Op.exec u) (membership u cfg) (.send i) (Stream.sendChecked (cfg i) i a)
      (fun _ => (membership u cfg).idle (.send i)) s := by
  refine wp_bind (stream_wp rfl hs Sending.rely (fun _ _ => trivial) ?_)
  intro n s₁ s₂ joinedAs hinv hs₁ hx hinv₂
  obtain ⟨rfl, rfl⟩ := Prod.mk.inj (Option.some.inj hx)
  split
  · rename_i hjoin
    split
    · exact refuse_sending hs₁
    · refine sendAction_wp hinv ?_ hs₁
      obtain ⟨actionId, clientId, action⟩ := a
      unfold MayCall
      split
      · rfl
      · rename_i hnot
        unfold Stream.isJoin at hjoin
        split at hjoin
        · rename_i join haction
          exact absurd haction (hnot join)
        · simp at hjoin
  · rename_i hjoin
    split
    · exact hs₁.idle
    · rename_i hid
      refine sendAction_wp hinv ?_ hs₁
      unfold MayCall
      split
      · rename_i join haction
        dsimp only at haction
        simp [Stream.isJoin, haction] at hjoin
      · exact hinv.actsFor rfl hid

theorem send_wp {rjs : List RoomJoined} {a : CollabAction} (hs : Sending u i rjs s) :
    wp (Op.exec u) (membership u cfg) (.send i) (Stream.send (cfg i) i a)
      (fun _ => (membership u cfg).idle (.send i)) s := by
  unfold Stream.send
  split
  · exact sendChecked_wp hs
  · split
    · exact sendChecked_wp hs
    · refine wp_bind (wp_mono ?_ (sending_wp rfl trivial hs))
      intro allowed s₁ hs₁
      split
      · exact sendChecked_wp hs₁
      · exact refuse_sending hs₁

theorem direct_wp {k : Nat} (call : DirectCall) :
    wp (Op.exec u) (membership u cfg) (.direct k) call.proc (fun _ _ => True) s := by
  cases call with
  | handleAction ctx a =>
    have hcall : MayCall u (fun i => (cfg i).principal) (.direct k) ctx a s.svc := by
      unfold MayCall
      split
      · trivial
      · exact fun i hi => by simp [Goroutine.stream?] at hi
    have howns : Owns (.direct k) (fun _ => True) s.svc := fun _ _ => trivial
    refine wp_bind (wp_mono (fun _ _ _ => trivial) (call_plain_wp ?_))
    exact wp_mono (fun _ _ _ => trivial) (handleAction_wp hcall howns)
  | deliverAppMessage sid c msg =>
    exact wp_bind (wp_mono (fun _ _ _ => trivial) (call_plain_wp (deliverAppMessage_wp rfl)))

/-- A goroutine other than a read loop has nothing to show in the end. -/
theorem idle_of_ne (h : ∀ i, g ≠ .send i) : (membership u cfg).idle g s :=
  fun i hi => absurd hi (h i)

/-- Whatever a launch starts keeps to the terms. -/
theorem start_wp {m : Launch} {p : Proc Unit} (h : m.apply cfg s = some (s', some (g, p)))
    (hidle : (membership u cfg).idle g s') :
    wp (Op.exec u) (membership u cfg) g p (fun _ => (membership u cfg).idle g) s' := by
  cases Launch.apply_started h with
  | send i a => exact wp_bind (wp_mono (fun _ _ hs => hs) (send_wp ⟨rfl, hidle i rfl⟩))
  | watchClose i => exact wp_mono (fun _ _ _ => idle_of_ne (fun _ => by simp)) watchClose_wp
  | expire i => exact wp_mono (fun _ _ _ => idle_of_ne (fun _ => by simp)) (endSession_wp rfl)
  | closeSend i k => exact wp_mono (fun _ _ _ => idle_of_ne (fun _ => by simp)) closeSend_wp
  | evict i c choice =>
      exact wp_mono (fun _ _ _ => idle_of_ne (fun _ => by simp)) (endSession_wp rfl)
  | direct k call => exact wp_mono (fun _ _ _ => idle_of_ne (fun _ => by simp)) (direct_wp call)

end Rules

/-! ### Every run -/

/-- The relay keeps to the terms. -/
theorem membership_sound : Sound (Op.exec u) (Launch.launch cfg) (membership u cfg) where
  refl := .refl u _ _
  trans h h' := h.trans h'
  idle_stable := by
    rintro g s₁ s₂ hrely hidle i rfl c hc
    rw [Stream.has_congr (hrely.answered rfl)]
    exact hidle i rfl c (hrely.svc.made hc)
  guarantee := by
    intro g g' n o s₁ s₂ r _ hreq _ hx hne
    cases o with
    | service o => exact .service hreq hx hne
    | stream i o => exact .stream hreq.2 hx hne
  launch_rely _ _ hl _ := .launch (Launch.launch_eq_some hl).2
  launch_inv hinv _ hl := hinv.launch (Launch.launch_eq_some hl).2
  launch_start _ _ hl hidle := start_wp (Launch.launch_eq_some hl).2 hidle

theorem Members.init (maxPeers : Int) : Members u cfg (System.init maxPeers).shared where
  svc := .new maxPeers
  answered h := by simp [System.init] at h
  clientId _ := Or.inl rfl
  bridges h := absurd rfl h

theorem membership_init (maxPeers : Int) :
    Holds (Op.exec u) (membership u cfg) (System.init maxPeers) := by
  refine .init (Members.init maxPeers) ?_
  rintro g i rfl c hc
  simp [newCollabService] at hc

/-- Every move is one of the protocol. -/
theorem membership_ok {t : System} {m : Move} : (membership u cfg).Ok t m := by
  cases m with
  | run g n => exact fun _ _ _ => trivial
  | launch m => trivial

theorem membership_guarded {t : System} {moves : List Move} :
    Machine.Guarded (System.step u cfg) (membership u cfg).Ok t moves :=
  Machine.guarded_of_forall fun _ _ _ => membership_ok

/-- In every run the streams know what the service does. -/
theorem membership_holds {maxPeers : Int} {moves : List Move} {t : System}
    (h : System.run u cfg (System.init maxPeers) moves = some t) :
    Holds (Op.exec u) (membership u cfg) t :=
  membership_sound.holds (membership_init maxPeers) membership_guarded h

end Relay

end MassRelay

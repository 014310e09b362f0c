import MassRelay.Server.JoinOrder

/-!
# MassRelay.Server.SessionEnd

The last event of a stream.

`endSession` queues its `SessionEnded` behind what is on `sendCh` and closes `ended`; from
then on `Recv` drains the channel and answers `io.EOF`. Its `sync.Once` lets one goroutine
through, so there is one such event at most, and it is queued before `ended` is closed.
But neither `Send` nor the bridge looks at `ended` before it puts an event on `sendCh`:
what they put there afterwards, `Recv` returns after the `SessionEnded`
(`eventAfterSessionEnded`). In a run in which they put nothing once it is queued
(`PutsBeforeEnd`), it is the last event, and `io.EOF` comes only after it
(`sessionEnded_last`).

Where a goroutine is with ending its session is the state of a discipline (`ending`).
-/

namespace MassRelay

open Threads CollabService

variable {u : UuidSource} {cfg : Nat → StreamConfig} {i : Nat} {g : Goroutine}

/-- The event ends a session. -/
def endsSession (e : CollabEvent) : Bool :=
  match e.event with
  | .sessionEnded _ => true
  | _ => false

/-- The item is the `SessionEnded` of `endSession`; that of a room comes through a bridge. -/
def Item.endsStream : Item → Bool
  | .reply e => endsSession e
  | .room _ _ => false

/-! ### What the service answers -/

/-- The answer of a call is not a `SessionEnded`. -/
def Answer.goesOn : Answer → Prop
  | .event e => endsSession e = false
  | .err _ | .nothing => True

/-- What is known of the answer of a step. -/
def ServiceOp.goesOn : (o : ServiceOp) → o.Res → Prop
  | .roomJoinedEvent .., e => endsSession e = false
  | _, _ => True

theorem ServiceOp.apply_goesOn {s s' : CollabService} {n : Nat} {o : ServiceOp} {a : o.Res}
    (h : o.apply u g n s = some (s', a)) : o.goesOn a := by
  cases o with
  | roomJoinedEvent eventId r sid c enc peers =>
    obtain ⟨-, rfl⟩ := Prod.mk.inj (Option.some.inj h)
    rfl
  | _ => trivial

namespace Call

theorem error_goesOn (code message : String) :
    (error code message).Returns ServiceOp.goesOn Answer.goesOn :=
  .bind uuid fun _ => rfl

theorem accept_goesOn (ctx : Ctx) (join : JoinRoom) (sid : String) (r : RoomRef)
    (encrypted : Bool) :
    (accept ctx join sid r encrypted).Returns ServiceOp.goesOn Answer.goesOn := by
  refine .bind _ fun peers => .bind _ fun c => .bind _ fun _ => .bind _ fun _ => .bind _ fun e =>
    .bind _ fun _ => .bind _ fun eventId => ?_
  exact fun answer h => h

theorem enterRoom_goesOn (ctx : Ctx) (join : JoinRoom) (sid : String) (r : RoomRef) :
    (enterRoom ctx join sid r).Returns ServiceOp.goesOn Answer.goesOn := by
  have hcheck : (checkEncryption ctx join sid r).Returns ServiceOp.goesOn Answer.goesOn := by
    refine .bind _ fun _ => .bind _ fun encrypted => ?_
    split
    · exact error_goesOn _ _
    · exact accept_goesOn ctx join sid r encrypted
  refine .bind _ fun full => ?_
  split
  · exact .bind _ fun message => error_goesOn _ message
  · split
    · refine .bind _ fun elsewhere => ?_
      split
      · trivial
      · exact hcheck
    · exact hcheck

theorem handleJoin_goesOn (ctx : Ctx) (join : JoinRoom) :
    (handleJoin ctx join).Returns ServiceOp.goesOn Answer.goesOn := by
  unfold handleJoin
  split
  · exact error_goesOn _ _
  · refine .bind _ fun sid => .bind _ fun _ => .bind _ fun lost => ?_
    split
    · exact error_goesOn _ _
    · exact .bind _ fun r => enterRoom_goesOn ctx join sid r

theorem handleLeave_goesOn (c : String) (leave : LeaveRoom) :
    (handleLeave c leave).Returns ServiceOp.goesOn Answer.goesOn := by
  have hannounce : ∀ r count, (announceLeft c leave.reason r count).Returns ServiceOp.goesOn
      Answer.goesOn :=
    fun r count => .bind _ fun _ => .bind _ fun _ => .bind _ fun _ => .bind _ fun _ => rfl
  refine .bind _ fun room => ?_
  cases room with
  | none => trivial
  | some r =>
    refine .bind _ fun flags => .bind _ fun _ => .bind _ fun count => ?_
    split
    · refine .bind _ fun successor => ?_
      cases successor with
      | none =>
        exact .bind _ fun _ => .bind _ fun _ => .bind _ fun _ => .bind _ fun _ =>
          .bind _ fun _ => rfl
      | some successor =>
        refine .bind _ fun _ => .bind _ fun _ => .bind _ fun _ => .bind _ fun _ => ?_
        exact hannounce r count
    · exact hannounce r count

theorem handleBroadcast_goesOn (c : String) (action : Action) :
    (handleBroadcast c action).Returns ServiceOp.goesOn Answer.goesOn := by
  refine .bind _ fun room => ?_
  cases room with
  | none => trivial
  | some r =>
    refine .bind _ fun eventId => ?_
    cases relayed action with
    | none => trivial
    | some event =>
      refine .bind _ fun _ => ?_
      unfold relay
      split
      · exact .bind _ fun _ => .bind _ fun _ => trivial
      · refine .bind _ fun missing => .bind _ fun _ => ?_
        split
        · trivial
        · exact error_goesOn _ _

/-- No call is answered with a `SessionEnded`. -/
theorem handleAction_goesOn (ctx : Ctx) (a : CollabAction) :
    (handleAction ctx a).Returns ServiceOp.goesOn Answer.goesOn := by
  have hroute : (route ctx a).Returns ServiceOp.goesOn Answer.goesOn := by
    unfold route
    split
    · exact handleJoin_goesOn ctx _
    · exact handleLeave_goesOn _ _
    · refine .bind _ fun room => ?_
      cases room with
      | none => trivial
      | some r => exact .bind _ fun _ => .bind _ fun _ => trivial
    · exact handleBroadcast_goesOn _ _
    · trivial
  exact hroute.seq fun answer h => .bind _ fun _ => h

end Call

/-! ### The discipline of `endSession` -/

/-- Where a goroutine is with the end of its session: not at it, the one that ends it, or
past the reply that says so. -/
inductive Ending
  | outside
  | entered
  | told

/-- The steps on its stream that a goroutine may make. -/
def Ending.MayOn : Ending → StreamOp → Prop
  | .outside, .reply e => endsSession e = false
  | .entered, .reply e => endsSession e = true
  | .outside, .closeEnded | .outside, .onceExit => False
  | .entered, .onceEnter | .entered, .closeEnded | .entered, .onceExit => False
  | .told, .onceEnter | .told, .reply _ => False
  | _, _ => True

def Ending.nextOn : Ending → (o : StreamOp) → o.Res → Ending
  | .outside, .onceEnter, first => if first then .entered else .outside
  | .entered, .reply _, _ => .told
  | .told, .onceExit, _ => .outside
  | q, _, _ => q

/-- The goroutine runs `endSession` of stream `i`. -/
def Goroutine.endsStream (i : Nat) : Goroutine → Bool
  | .expiry j | .bridge j _ => j = i
  | _ => false

/-- How the goroutines of stream `i` end its session: the one that does queues one
`SessionEnded` before it closes `ended`, and nobody else does. Before it queues it, it
removes the client of the stream. -/
def ending (i : Nat) (g : Goroutine) : Discipline Op Op.Res Ending where
  may q
    | .service (.removeClient _ _) => g.endsStream i = true → q = .entered
    | .service _ => True
    | .stream j o => g.stream? = some i → j = i → q.MayOn o
  answer
    | .service o, a => o.goesOn a
    | .stream _ _, _ => True
  next q
    | .service _, _ => q
    | .stream j o, a => if g.stream? = some i ∧ j = i then q.nextOn o a else q

section Follows

variable {q : Ending} {α : Type}

theorem Goroutine.stream?_of_endsStream (h : g.endsStream i = true) : g.stream? = some i := by
  cases g with
  | expiry j | bridge j _ => simpa [Goroutine.endsStream, Goroutine.stream?] using h
  | _ => simp [Goroutine.endsStream] at h

/-- A step of the service, of a goroutine that may remove clients now. -/
theorem ending_service (hq : g.endsStream i = true → q = .entered) (o : ServiceOp) :
    (ending i g).may q (.service o) := by
  cases o with
  | removeClient r c => exact hq
  | _ => trivial

/-- A goroutine of another stream is free to do anything. -/
theorem ending_other (h : g.stream? ≠ some i) (p : Proc α) : p.Stays (ending i g) q := by
  refine .of_forall (fun o => ?_) p
  cases o with
  | service o =>
    refine ⟨ending_service (fun hg => ?_) o, fun _ => rfl⟩
    exact absurd (Goroutine.stream?_of_endsStream hg) h
  | stream j o => exact ⟨fun hg => absurd hg h, fun _ => if_neg fun hg => h hg.1⟩

theorem Call.proc_ending (hq : g.endsStream i = true → q = .entered) (call : Call α) :
    call.proc.Stays (ending i g) q := by
  induction call with
  | ret a => exact .ret a
  | op o k ih => exact .op (ending_service hq o) (fun _ => rfl) fun a _ => ih a

theorem handleAction_ending (hq : g.endsStream i = true → q = .entered) (ctx : Ctx)
    (a : CollabAction) :
    (Call.handleAction ctx a).proc.Follows (ending i g)
      (fun answer q' => q' = q ∧ answer.goesOn) q :=
  (Call.proc_ending hq _).returns ((Call.handleAction_goesOn ctx a).embed fun h => h)

/-- A step that has nothing to do with the end of the session. -/
def StreamOp.bystands : StreamOp → Bool
  | .reply _ | .onceEnter | .onceExit | .closeEnded => false
  | _ => true

theorem Ending.of_bystands {o : StreamOp} (ho : o.bystands = true) :
    q.MayOn o ∧ ∀ a, q.nextOn o a = q := by
  cases o with
  | reply _ | onceEnter | onceExit | closeEnded => simp [StreamOp.bystands] at ho
  | _ => cases q <;> exact ⟨trivial, fun _ => rfl⟩

theorem perform_bystands {o : StreamOp} (ho : o.bystands = true) :
    (Stream.perform i o).Stays (ending i g) q := by
  refine .perform (fun _ _ => (Ending.of_bystands ho).1) fun a => ?_
  simp only [ending, (Ending.of_bystands ho).2, ite_self]

section Own

variable (hg : g.stream? = some i)

include hg

theorem ending_follows {o : StreamOp} {f : o.Res → Proc α} {post : α → Ending → Prop}
    (hmay : q.MayOn o) (hf : ∀ a, (f a).Follows (ending i g) post (q.nextOn o a)) :
    (Stream.perform i o >>= f).Follows (ending i g) post q := by
  refine .op (fun _ _ => hmay) fun a _ => ?_
  have hnext : (ending i g).next q (.stream i o) a = q.nextOn o a := if_pos ⟨hg, rfl⟩
  rw [hnext]
  exact hf a

theorem reply_outside {e : CollabEvent} (he : endsSession e = false) :
    (Stream.reply i e).Stays (ending i g) .outside :=
  ending_follows hg he fun _ => rfl

omit hg in
theorem leaveAndCleanup_ending (hq : g.endsStream i = true → q = .entered) (reason : String) :
    (Stream.leaveAndCleanup i reason).Stays (ending i g) q := by
  refine .bind (perform_bystands rfl) fun ids => ?_
  dsimp only
  split
  · exact .bind (Call.proc_ending hq _) fun _ => .ret _
  · exact .ret _

theorem endSession_ending (reason : String) :
    (Stream.endSession i reason).Stays (ending i g) .outside := by
  refine ending_follows hg trivial fun first => ?_
  cases first with
  | false => exact Prog.Stays.ret _
  | true =>
    refine Prog.Stays.then (leaveAndCleanup_ending (fun _ => rfl) reason) fun _ => ?_
    refine Prog.Stays.then (Call.proc_ending (fun _ => rfl) _) fun eventId => ?_
    simp only [Stream.reply, Prog.bind_assoc]
    refine ending_follows hg rfl fun queued => ?_
    refine ending_follows hg trivial fun _ => ?_
    refine ⟨fun _ _ => trivial, fun _ _ => ?_⟩
    exact if_pos ⟨hg, rfl⟩

end Own

theorem refuse_outside (code message : String) :
    (Stream.refuse i code message).Stays (ending i (.send i)) .outside :=
  .bind (Call.proc_ending (by simp [Goroutine.endsStream]) _) fun _ => reply_outside rfl rfl

theorem sendAction_outside (c : StreamConfig) (a : CollabAction) :
    (Stream.sendAction c i a).Stays (ending i (.send i)) .outside := by
  have hfree : (Goroutine.send i).endsStream i = true → Ending.outside = .entered := by
    simp [Goroutine.endsStream]
  refine Prog.Follows.bind (.mono ?_ (handleAction_ending hfree _ a))
  rintro answer q ⟨rfl, hanswer⟩
  cases answer with
  | err _ | nothing => exact Prog.Stays.ret _
  | event e =>
    refine Prog.Stays.then ?_ fun _ => reply_outside rfl hanswer
    unfold Stream.noteJoined
    split
    · refine .onlyIf
        (.bind (perform_bystands rfl) fun _ => .bind (Call.proc_ending hfree _) fun _ => ?_)
      exact .onlyIf (perform_bystands rfl)
    · exact .ret _

theorem send_outside (c : StreamConfig) (a : CollabAction) :
    (Stream.send c i a).Stays (ending i (.send i)) .outside := by
  have hchecked : (Stream.sendChecked c i a).Stays (ending i (.send i)) .outside := by
    refine .bind (perform_bystands rfl) fun joinedAs => ?_
    split
    · split
      · exact refuse_outside _ _
      · exact sendAction_outside c a
    · split
      · exact .ret _
      · exact sendAction_outside c _
  unfold Stream.send
  split
  · exact hchecked
  · split
    · exact hchecked
    · refine .bind (perform_bystands rfl) fun allowed => ?_
      split
      · exact hchecked
      · exact refuse_outside _ _

/-- Whatever a launch starts follows the discipline. -/
theorem start_ending {m : Launch} {p : Proc Unit} {s s' : Relay}
    (h : m.apply cfg s = some (s', some (g, p))) : p.Stays (ending i g) .outside := by
  by_cases hg : g.stream? = some i
  · cases Launch.apply_started h with
    | send j a =>
      obtain rfl := Option.some.inj hg
      exact .bind (send_outside _ a) fun _ => .ret _
    | watchClose j =>
      obtain rfl := Option.some.inj hg
      exact .bind (.onlyIf (perform_bystands rfl)) fun _ =>
        leaveAndCleanup_ending (by simp [Goroutine.endsStream]) _
    | expire j =>
      obtain rfl := Option.some.inj hg
      exact endSession_ending hg _
    | closeSend j k =>
      obtain rfl := Option.some.inj hg
      exact .bind (leaveAndCleanup_ending (by simp [Goroutine.endsStream]) _) fun _ =>
        perform_bystands rfl
    | evict j c choice =>
      obtain rfl := Option.some.inj hg
      exact endSession_ending hg _
    | direct k call => simp [Goroutine.stream?] at hg
  · exact ending_other hg p

end Follows

/-! ### What is put on `sendCh` -/

section Queue

variable {s s' : Relay} {n : Nat}

/-- A reply is queued, or the process goes down or the context is done. -/
theorem Relay.reply_queued {e : CollabEvent} {queued : Bool}
    (h : s.reply i e n = some (s', queued)) :
    (s'.streams i).cancelled = (s.streams i).cancelled ∧
    ((n % 2 = 0 ∧ (s'.streams i).queued = (s.streams i).queued ++ [.reply e]) ∨
      ((s'.streams i).queued = (s.streams i).queued ∧
        (s'.panicked = true ∨ (s.streams i).cancelled = true))) := by
  have hnote : ∀ s₁ : Relay, ((s₁.noteReplied i e).streams i).cancelled =
      (s₁.streams i).cancelled ∧ ((s₁.noteReplied i e).streams i).queued = (s₁.streams i).queued ∧
      (s₁.noteReplied i e).panicked = s₁.panicked := by
    intro s₁
    unfold Relay.noteReplied
    split
    · rw [Relay.modifyStream_self]
      exact ⟨rfl, rfl, rfl⟩
    · exact ⟨rfl, rfl, rfl⟩
  unfold Relay.reply at h
  split at h
  · rename_i hn
    obtain ⟨s₁, hput, heq⟩ := Option.map_eq_some_iff.mp h
    obtain ⟨rfl, -⟩ := Prod.mk.inj heq
    obtain ⟨hcancelled, hqueued, hpanicked⟩ := hnote s₁
    rw [hcancelled, hqueued, hpanicked]
    rcases Relay.put?_cases hput with ⟨-, rfl⟩ | ⟨-, ch, -, rfl⟩
    · exact ⟨rfl, Or.inr ⟨rfl, Or.inl rfl⟩⟩
    · rw [Relay.modifyStream_self]
      exact ⟨rfl, Or.inl ⟨hn, rfl⟩⟩
  · split at h
    · rename_i hcancelled
      obtain ⟨rfl, -⟩ := Prod.mk.inj (Option.some.inj h)
      exact ⟨rfl, Or.inr ⟨rfl, Or.inr hcancelled⟩⟩
    · simp at h

/-- No other step puts anything on `sendCh`. -/
theorem StreamOp.apply_queued {o : StreamOp} {a : o.Res} (ho : ∀ e, o ≠ .reply e)
    (h : o.apply i n s = some (s', a)) :
    (s'.streams i).cancelled = (s.streams i).cancelled ∧
      (s'.streams i).queued = (s.streams i).queued := by
  cases o with
  | reply e => exact absurd rfl (ho e)
  | onceEnter =>
    simp only [StreamOp.apply] at h
    split at h
    · obtain ⟨rfl, -⟩ := Prod.mk.inj (Option.some.inj h)
      rw [Relay.modifyStream_self]
      exact ⟨rfl, rfl⟩
    · simp at h
    · obtain ⟨rfl, -⟩ := Prod.mk.inj (Option.some.inj h)
      exact ⟨rfl, rfl⟩
  | closeSendCh =>
    simp only [StreamOp.apply] at h
    split at h
    · obtain ⟨rfl, -⟩ := Prod.mk.inj (Option.some.inj h)
      exact ⟨rfl, rfl⟩
    · obtain ⟨rfl, -⟩ := Prod.mk.inj (Option.some.inj h)
      rw [Relay.modifyStream_self]
      exact ⟨rfl, rfl⟩
  | allow | readClientId =>
    obtain ⟨rfl, -⟩ := Prod.mk.inj (Option.some.inj h)
    exact ⟨rfl, rfl⟩
  | store _ | goBridge _ | onceExit | closeEnded | clear | stopExpiry =>
    obtain ⟨rfl, -⟩ := Prod.mk.inj (Option.some.inj h)
    rw [Relay.modifyStream_self]
    exact ⟨rfl, rfl⟩

/-- A bridge puts the event it has in hand on the `sendCh` of its own stream. -/
theorem Relay.bridgeStep_queued {j : Nat} {c : String} {choice : Choice}
    {start : Option (Goroutine × Proc Unit)}
    (h : s.bridgeStep j c ((s.streams j).bridges c) choice = some (s', start)) :
    (s'.streams i).cancelled = (s.streams i).cancelled ∧
    ((s'.streams i).queued = (s.streams i).queued ∨
      (j = i ∧ choice = .chan ∧ ∃ q, ((s.streams i).bridges c).held? = some q ∧
        (s'.streams i).queued = (s.streams i).queued ++ [.room c q])) := by
  have hset : ∀ (s₁ : Relay) (b : Bridge), ((s₁.setBridge j c b).streams i).cancelled =
      (s₁.streams i).cancelled ∧ ((s₁.setBridge j c b).streams i).queued = (s₁.streams i).queued :=
    fun s₁ b => ⟨Relay.modifyStream_field (φ := Stream.cancelled) rfl i,
      Relay.modifyStream_field (φ := Stream.queued) rfl i⟩
  by_cases hchoice : choice = .chan
  · have heffect := Relay.bridgeStep_effect h
    generalize hb : (s.streams j).bridges c = b at heffect
    cases heffect with
    | @take _ _ _ svc _ _ => exact ⟨(hset { s with svc } _).1, Or.inl (hset { s with svc } _).2⟩
    | @put _ _ q s₁ hput hbridge =>
      rw [(hset s₁ _).1, (hset s₁ _).2]
      rcases Relay.put?_cases hput with ⟨-, rfl⟩ | ⟨-, ch, -, rfl⟩
      · exact ⟨rfl, Or.inl rfl⟩
      · by_cases hj : i = j
        · subst hj
          have hheld : ((s.streams i).bridges c).held? = some q := by
            rw [hb]
            rcases hbridge with ⟨rfl, -⟩ | ⟨rfl, -⟩ <;> rfl
          rw [Relay.modifyStream_self]
          exact ⟨rfl, Or.inr ⟨rfl, hchoice, q, hheld, rfl⟩⟩
        · rw [Relay.modifyStream_of_ne _ _ hj]
          exact ⟨rfl, Or.inl rfl⟩
    | slow _ _ | stop _ | evict => exact ⟨(hset s _).1, Or.inl (hset s _).2⟩
  · obtain ⟨b', rfl⟩ := Relay.bridgeStep_of_ne_chan hchoice h
    exact ⟨(hset s b').1, Or.inl (hset s b').2⟩

/-- Among the launches, only a bridge puts an event on `sendCh`. -/
theorem Launch.apply_queued {m : Launch} {start : Option (Goroutine × Proc Unit)}
    (h : m.apply cfg s = some (s', start)) :
    ((s.streams i).cancelled = true → (s'.streams i).cancelled = true) ∧
    ((s'.streams i).queued = (s.streams i).queued ∨
      ∃ c q, m = .bridge i c .chan ∧ ((s.streams i).bridges c).held? = some q ∧
        (s'.streams i).queued = (s.streams i).queued ++ [.room c q]) := by
  have hfield : ∀ {j f}, s' = s.modifyStream j f →
      (∀ st : Stream, (f st).cancelled = st.cancelled) →
      (∀ st : Stream, (f st).queued = st.queued) →
      ((s.streams i).cancelled = true → (s'.streams i).cancelled = true) ∧
        (s'.streams i).queued = (s.streams i).queued := by
    rintro j f rfl hc hq
    rw [Relay.modifyStream_field (φ := Stream.cancelled) (hc _) i,
      Relay.modifyStream_field (φ := Stream.queued) (hq _) i]
    exact ⟨id, rfl⟩
  cases m with
  | recv j =>
    obtain ⟨s₁, hrecv, heq⟩ := Option.map_eq_some_iff.mp h
    obtain ⟨rfl, -⟩ := Prod.mk.inj heq
    obtain ⟨⟨item, ch⟩, -, hs⟩ := Option.map_eq_some_iff.mp hrecv
    dsimp only at hs
    exact (hfield hs.symm (fun _ => rfl) fun _ => rfl).imp_right Or.inl
  | bridge j c choice =>
    obtain ⟨hcancelled, hqueued⟩ := Relay.bridgeStep_queued (i := i) h
    refine ⟨hcancelled ▸ id, hqueued.imp_right ?_⟩
    rintro ⟨rfl, rfl, q, hheld, hqueued⟩
    exact ⟨c, q, rfl, hheld, hqueued⟩
  | watchClose j | expire j =>
    simp only [Launch.apply] at h
    split at h
    · obtain ⟨hs, -⟩ := Prod.mk.inj (Option.some.inj h)
      exact (hfield hs.symm (fun _ => rfl) fun _ => rfl).imp_right Or.inl
    · simp at h
  | cancel j =>
    obtain ⟨rfl, -⟩ := Prod.mk.inj (Option.some.inj h)
    refine ⟨fun hcancelled => ?_, Or.inl (Relay.modifyStream_field (φ := Stream.queued) rfl i)⟩
    by_cases hj : i = j
    · subst hj
      rw [Relay.modifyStream_self]
    · rwa [Relay.modifyStream_of_ne _ _ hj]
  | send _ _ | closeSend _ _ | direct _ _ =>
    obtain ⟨rfl, -⟩ := Prod.mk.inj (Option.some.inj h)
    exact ⟨id, Or.inl rfl⟩

end Queue

/-! ### One `SessionEnded`, and nothing after it -/

/-- The `SessionEnded` of `endSession` was put on `sendCh`. -/
def Stream.EndQueued (st : Stream) : Prop := ∃ item ∈ st.queued, item.endsStream = true

instance (st : Stream) : Decidable st.EndQueued := by
  unfold Stream.EndQueued
  infer_instance

/-- Nothing comes after the `SessionEnded` of `endSession`. -/
def EndsLast (items : List Item) : Prop :=
  ∀ pre item post, items = pre ++ item :: post → item.endsStream = true → post = []

theorem EndsLast.snoc {items : List Item} {item : Item}
    (h : ¬ ∃ item ∈ items, item.endsStream = true) : EndsLast (items ++ [item]) := by
  intro pre item' post heq hends
  rcases List.eq_nil_or_concat post with rfl | ⟨post', last, rfl⟩
  · rfl
  · have heq : items ++ [item] = (pre ++ item' :: post') ++ [last] := by simpa using heq
    refine absurd ⟨item', ?_, hends⟩ h
    rw [(List.append_inj' heq rfl).1]
    simp

/-- What was done about the end of stream `i`. -/
structure EndsOnce (i : Nat) (s : Relay) (q : Goroutine → Ending) : Prop where
  unique : ∀ {g}, q g ≠ .outside → (s.streams i).endOnce = .running ∧
    ∀ {g'}, q g' ≠ .outside → g' = g
  before : (s.streams i).endOnce = .idle ∨ (∃ g, q g = .entered) → ¬ (s.streams i).EndQueued
  told : ∀ {g}, q g = .told →
    s.panicked = true ∨ (s.streams i).cancelled = true ∨ (s.streams i).EndQueued
  after : (s.streams i).endOnce = .done ∨ (s.streams i).ended = true →
    (s.streams i).cancelled = true ∨ (s.streams i).EndQueued
  last : EndsLast (s.streams i).queued

section Step

variable {s s' : Relay} {q : Goroutine → Ending} {n : Nat}

theorem EndsOnce.congr (hs : EndsOnce i s q) (hp : s.panicked = false)
    (honce : (s'.streams i).endOnce = (s.streams i).endOnce)
    (hended : (s'.streams i).ended = (s.streams i).ended)
    (hcancelled : (s.streams i).cancelled = true → (s'.streams i).cancelled = true)
    (hqueued : (s'.streams i).queued = (s.streams i).queued) : EndsOnce i s' q := by
  have hend : (s'.streams i).EndQueued ↔ (s.streams i).EndQueued := by
    rw [Stream.EndQueued, hqueued, Stream.EndQueued]
  refine ⟨?_, ?_, fun h => ?_, ?_, hqueued ▸ hs.last⟩
  · rw [honce]
    exact hs.unique
  · rw [honce, hend]
    exact hs.before
  · rcases hs.told h with h | h | h
    · simp [hp] at h
    · exact Or.inr (Or.inl (hcancelled h))
    · exact Or.inr (Or.inr (hend.mpr h))
  · rw [honce, hended, hend]
    exact fun h => (hs.after h).imp_left hcancelled

/-- An event is put on `sendCh` before the `SessionEnded`. -/
theorem EndsOnce.put {item : Item} (hs : EndsOnce i s q) (hp : s.panicked = false)
    (honce : (s'.streams i).endOnce = (s.streams i).endOnce)
    (hended : (s'.streams i).ended = (s.streams i).ended)
    (hcancelled : (s'.streams i).cancelled = (s.streams i).cancelled)
    (hnone : ¬ (s.streams i).EndQueued) (hitem : item.endsStream = false)
    (hqueued : (s'.streams i).queued = (s.streams i).queued ++ [item]) : EndsOnce i s' q := by
  have hend : ¬ (s'.streams i).EndQueued := by
    rintro ⟨item', hmem, hends⟩
    rw [hqueued] at hmem
    rcases List.mem_append.mp hmem with hmem | hmem
    · exact hnone ⟨item', hmem, hends⟩
    · obtain rfl := List.mem_singleton.mp hmem
      simp [hitem] at hends
  refine ⟨?_, fun _ => hend, fun h => ?_, ?_, ?_⟩
  · rw [honce]
    exact hs.unique
  · rcases hs.told h with h | h | h
    · simp [hp] at h
    · exact Or.inr (Or.inl (hcancelled.trans h))
    · exact absurd h hnone
  · rw [honce, hended, hcancelled]
    exact fun h => Or.inl ((hs.after h).resolve_right hnone)
  · rw [hqueued]
    exact .snoc hnone

/-- The goroutine that ends the session queues its `SessionEnded`. -/
theorem EndsOnce.tell {e : CollabEvent} (hs : EndsOnce i s q) (hg : q g = .entered)
    (he : endsSession e = true) (honce : (s'.streams i).endOnce = (s.streams i).endOnce)
    (hended : (s'.streams i).ended = (s.streams i).ended)
    (hcancelled : (s'.streams i).cancelled = (s.streams i).cancelled)
    (hqueued : (s'.streams i).queued = (s.streams i).queued ++ [.reply e] ∨
      ((s'.streams i).queued = (s.streams i).queued ∧
        (s'.panicked = true ∨ (s.streams i).cancelled = true))) :
    EndsOnce i s' (Function.update q g .told) := by
  have hne : q g ≠ .outside := by simp [hg]
  obtain ⟨hrunning, honly⟩ := hs.unique hne
  have hnone : ¬ (s.streams i).EndQueued := hs.before (Or.inr ⟨g, hg⟩)
  have hnew : ∀ {g'}, Function.update q g .told g' ≠ .outside → g' = g := by
    intro g' h
    by_contra hg'
    rw [Function.update_of_ne hg'] at h
    exact hg' (honly h)
  refine ⟨fun h => ?_, fun h => ?_, fun _ => ?_, fun h => ?_, ?_⟩
  · rw [honce, hnew h]
    exact ⟨hrunning, fun h' => hnew h'⟩
  · rcases h with h | ⟨g', h⟩
    · simp [honce, hrunning] at h
    · rw [@hnew g' (by simp [h]), Function.update_self] at h
      simp at h
  · rw [hcancelled]
    rcases hqueued with hqueued | ⟨-, h | h⟩
    · exact Or.inr (Or.inr ⟨.reply e, by simp [hqueued], he⟩)
    · exact Or.inl h
    · exact Or.inr (Or.inl h)
  · rw [honce, hended] at h
    rw [hcancelled]
    exact Or.inl ((hs.after h).resolve_right hnone)
  · rcases hqueued with hqueued | ⟨hqueued, -⟩
    · rw [hqueued]
      exact .snoc hnone
    · rw [hqueued]
      exact hs.last

/-- A goroutine gets to be the one that ends the session. -/
theorem EndsOnce.enter (hs : EndsOnce i s q) (honce : (s.streams i).endOnce = .idle) :
    EndsOnce i (s.modifyStream i fun st => { st with endOnce := .running })
      (Function.update q g .entered) := by
  have houtside : ∀ g', q g' = .outside := by
    intro g'
    by_contra h
    simp [(hs.unique h).1] at honce
  have hnew : ∀ {g'}, Function.update q g .entered g' ≠ .outside → g' = g := by
    intro g' h
    by_contra hg
    rw [Function.update_of_ne hg] at h
    exact h (houtside g')
  refine ⟨fun {g'} h => ?_, fun _ => ?_, fun {g'} h => ?_, fun h => ?_, ?_⟩
  · rw [Relay.modifyStream_self, hnew h]
    exact ⟨rfl, fun h' => hnew h'⟩
  · rw [Relay.modifyStream_self]
    exact hs.before (Or.inl honce)
  · rw [@hnew g' (by simp [h]), Function.update_self] at h
    simp at h
  · rw [Relay.modifyStream_self] at h ⊢
    exact hs.after (Or.inr (h.resolve_left (by simp)))
  · rw [Relay.modifyStream_self]
    exact hs.last

/-- The session is over: `ended` is closed, or the `sync.Once` is done. -/
theorem EndsOnce.over {d : Ending} (hs : EndsOnce i s q) (hp : s.panicked = false)
    (hg : q g = .told) (hd : d = .told ∧ (s'.streams i).endOnce = (s.streams i).endOnce ∨
      d = .outside ∧ (s'.streams i).endOnce = .done)
    (hcancelled : (s'.streams i).cancelled = (s.streams i).cancelled)
    (hqueued : (s'.streams i).queued = (s.streams i).queued) :
    EndsOnce i s' (Function.update q g d) := by
  have hne : q g ≠ .outside := by simp [hg]
  obtain ⟨hrunning, honly⟩ := hs.unique hne
  have hend : (s'.streams i).EndQueued ↔ (s.streams i).EndQueued := by
    rw [Stream.EndQueued, hqueued, Stream.EndQueued]
  have htold : (s'.streams i).cancelled = true ∨ (s'.streams i).EndQueued := by
    rw [hcancelled, hend]
    exact (hs.told hg).resolve_left (by simp [hp])
  have hnew : ∀ {g'}, Function.update q g d g' ≠ .outside → g' = g := by
    intro g' h
    by_contra hg'
    rw [Function.update_of_ne hg'] at h
    exact hg' (honly h)
  refine ⟨fun {g'} h => ?_, fun h => ?_, fun _ => Or.inr htold, fun _ => htold, hqueued ▸ hs.last⟩
  · obtain rfl := hnew h
    rw [Function.update_self] at h
    rcases hd with ⟨-, honce⟩ | ⟨rfl, -⟩
    · exact ⟨honce.trans hrunning, fun h' => hnew h'⟩
    · exact absurd rfl h
  · rcases h with h | ⟨g', h⟩
    · rcases hd with ⟨-, honce⟩ | ⟨-, honce⟩ <;> simp [honce, hrunning] at h
    · rw [@hnew g' (by simp [h]), Function.update_self] at h
      rcases hd with ⟨rfl, -⟩ | ⟨rfl, -⟩ <;> simp at h

/-- A step on stream `i`, of a goroutine of it. -/
theorem EndsOnce.stream {o : StreamOp} {a : o.Res} (hs : EndsOnce i s q) (hp : s.panicked = false)
    (hmay : (q g).MayOn o)
    (hputs : ∀ e, o = .reply e → n % 2 = 0 → endsSession e = false → ¬ (s.streams i).EndQueued)
    (hx : o.apply i n s = some (s', a)) :
    EndsOnce i s' (Function.update q g ((q g).nextOn o a)) := by
  have heffect := StreamOp.apply_effect hx
  -- most steps say nothing and leave the once alone
  have hbystands : o.bystands = true → (s'.streams i).endOnce = (s.streams i).endOnce →
      (s'.streams i).ended = (s.streams i).ended →
      EndsOnce i s' (Function.update q g ((q g).nextOn o a)) := by
    intro ho honce hended
    have hreply : ∀ e, o ≠ .reply e := by
      rintro e rfl
      simp [StreamOp.bystands] at ho
    obtain ⟨hcancelled, hqueued⟩ := StreamOp.apply_queued hreply hx
    rw [(Ending.of_bystands ho).2, Function.update_eq_self]
    exact hs.congr hp honce hended (hcancelled ▸ id) hqueued
  cases o with
  | reply e =>
    obtain ⟨hcancelled, hqueued⟩ := Relay.reply_queued hx
    cases hg : q g with
    | outside =>
      rw [hg] at hmay
      have hnext : Ending.outside.nextOn (.reply e) a = q g := hg.symm
      rw [hnext, Function.update_eq_self]
      rcases hqueued with ⟨hn, hqueued⟩ | ⟨hqueued, -⟩
      -- an answer of `Send`, put before the end by assumption
      · have hitem : (Item.reply e).endsStream = false := hmay
        exact hs.put hp heffect.endOnce heffect.ended hcancelled (hputs e rfl hn hmay) hitem hqueued
      · exact hs.congr hp heffect.endOnce heffect.ended (hcancelled ▸ id) hqueued
    | entered =>
      rw [hg] at hmay
      exact hs.tell hg hmay heffect.endOnce heffect.ended hcancelled (hqueued.imp_left And.right)
    | told =>
      rw [hg] at hmay
      exact hmay.elim
  | onceEnter =>
    cases hg : q g with
    | outside =>
      simp only [StreamOp.apply] at hx
      split at hx
      · rename_i honce
        obtain ⟨rfl, rfl⟩ := Prod.mk.inj (Option.some.inj hx)
        exact hs.enter honce
      · simp at hx
      · obtain ⟨rfl, rfl⟩ := Prod.mk.inj (Option.some.inj hx)
        have hnext : Ending.outside.nextOn .onceEnter false = q g := hg.symm
        rw [hnext, Function.update_eq_self]
        exact hs
    | entered | told =>
      rw [hg] at hmay
      exact hmay.elim
  | closeEnded =>
    obtain ⟨hcancelled, hqueued⟩ := StreamOp.apply_queued (by simp) hx
    cases hg : q g with
    | told => exact hs.over hp hg (Or.inl ⟨rfl, heffect.endOnce⟩) hcancelled hqueued
    | outside | entered =>
      rw [hg] at hmay
      exact hmay.elim
  | onceExit =>
    obtain ⟨hcancelled, hqueued⟩ := StreamOp.apply_queued (by simp) hx
    cases hg : q g with
    | told => exact hs.over hp hg (Or.inr ⟨rfl, heffect.endOnce⟩) hcancelled hqueued
    | outside | entered =>
      rw [hg] at hmay
      exact hmay.elim
  | _ => exact hbystands rfl heffect.endOnce heffect.ended

end Step

/-! ### Every run -/

/-- No bridge, and no answer of `Send`, puts an event on the `sendCh` of stream `i` once the
`SessionEnded` of `endSession` is there. -/
def PutsBeforeEnd (i : Nat) (t : System) : Move → Prop
  | .run g n =>
    match t.next? g with
    | some (.stream j (.reply e)) =>
      j = i → n % 2 = 0 → endsSession e = false → ¬ (t.shared.streams i).EndQueued
    | _ => True
  | .launch (.bridge j c .chan) =>
    j = i → ((t.shared.streams i).bridges c).held?.isSome = true →
      ¬ (t.shared.streams i).EndQueued
  | .launch _ => True

instance (i : Nat) (t : System) (m : Move) : Decidable (PutsBeforeEnd i t m) :=
  decidable_of_iff ((match m with
    | .run g n =>
      match t.next? g with
      | some (.stream j (.reply e)) => decide (j = i → n % 2 = 0 → endsSession e = false →
          ¬ (t.shared.streams i).EndQueued)
      | _ => true
    | .launch (.bridge j c .chan) => decide (j = i →
        ((t.shared.streams i).bridges c).held?.isSome = true → ¬ (t.shared.streams i).EndQueued)
    | .launch _ => true) = true) (by
      unfold PutsBeforeEnd
      split
      · split
        · exact decide_eq_true_iff
        · exact iff_of_true rfl trivial
      · exact decide_eq_true_iff
      · exact iff_of_true rfl trivial)

section Run

variable {maxPeers : Int} {moves : List Move} {t t' : System}

theorem EndsOnce.move {m : Move} {q : Goroutine → Ending}
    (hmembers : Holds (Op.exec u) (Relay.membership u cfg) t)
    (hq : Disciplined (ending i) (fun _ q => q = .outside) t q) (hs : EndsOnce i t.shared q)
    (hm : PutsBeforeEnd i t m) (h : System.step u cfg t m = some t') :
    ∃ q', Disciplined (ending i) (fun _ q => q = .outside) t' q' ∧ EndsOnce i t'.shared q' := by
  have hlaunch : ∀ {m' s start}, m = .launch m' → m'.launch cfg t.shared = some (s, start) →
      EndsOnce i s q := by
    rintro m' s start rfl hl
    obtain ⟨hcrash, happly⟩ := Launch.launch_eq_some hl
    have hkept := Launch.apply_joinsKept happly
    obtain ⟨hcancelled, hqueued | ⟨c, e, rfl, hheld, hqueued⟩⟩ :=
      Launch.apply_queued (i := i) happly
    · exact hs.congr (panicked_of_crashed hcrash) (hkept.endOnce i)
        (hkept.ended i) hcancelled hqueued
    -- a bridge that puts the event it held
    · have hnone : ¬ (t.shared.streams i).EndQueued := hm rfl (by simp [hheld])
      exact hs.put (panicked_of_crashed hcrash) (hkept.endOnce i) (hkept.ended i)
        (Relay.bridgeStep_queued happly).1 hnone rfl hqueued
  rcases hq.step h with ⟨g, n, o, k, s, a, rfl, hg, hx, hmay, rfl, hfollows⟩ |
    ⟨m', s, rfl, hl, rfl, hfollows⟩ | ⟨m', s, g, p, rfl, hl, -, hidle, rfl, hfollows⟩
  · cases o with
    | service o =>
      obtain ⟨hcrash, happly, heq⟩ := Op.exec_service hx
      refine ⟨_, hfollows (ServiceOp.apply_goesOn happly), ?_⟩
      simp only [ending, Function.update_eq_self]
      refine hs.congr (panicked_of_crashed hcrash) ?_ ?_ ?_ ?_ <;> rw [heq]
      exact id
    | stream j o =>
      obtain ⟨hcrash, happly⟩ := Op.exec_stream hx
      have hreq := hmembers.req Relay.membership_sound hg
      refine ⟨_, hfollows trivial, ?_⟩
      by_cases hj : i = j
      · subst hj
        have hnext : (ending i g).next (q g) (.stream i o) a = (q g).nextOn o a :=
          if_pos ⟨hreq.1, rfl⟩
        rw [hnext]
        refine hs.stream (panicked_of_crashed hcrash) (hmay hreq.1 rfl) ?_ happly
        rintro e rfl hn he
        have hop : t.next? g = some (.stream i (.reply e)) := by
          rw [System.next?, hg]
          rfl
        simp only [PutsBeforeEnd, hop] at hm
        exact hm trivial hn he
      · have hnext : (ending i g).next (q g) (.stream j o) a = q g := if_neg fun h => hj h.2.symm
        have hstream := (StreamOp.apply_effect happly).other hj
        rw [hnext, Function.update_eq_self]
        refine hs.congr (panicked_of_crashed hcrash) ?_ ?_ ?_ ?_ <;> rw [hstream]
        exact id
  · exact ⟨q, hfollows, hlaunch rfl hl⟩
  · refine ⟨_, hfollows .outside (start_ending (Launch.launch_eq_some hl).2), ?_⟩
    have hsame : Function.update q g .outside = q := by
      rw [← hidle, Function.update_eq_self]
    rw [hsame]
    exact hlaunch rfl hl

theorem endsOnce_run
    (hguard : Machine.Guarded (System.step u cfg) (PutsBeforeEnd i) (System.init maxPeers) moves)
    (h : System.run u cfg (System.init maxPeers) moves = some t) :
    ∃ q, EndsOnce i t.shared q := by
  have hrun := (Relay.membership_sound.invariant (C := PutsBeforeEnd i) (I := fun t => ∃ q,
    Disciplined (ending i) (fun _ q => q = .outside) t q ∧ EndsOnce i t.shared q)
    (fun _ => Relay.membership_ok) ?_ (Relay.membership_init maxPeers) ?_ hguard h).2
  · obtain ⟨q, -, hs⟩ := hrun
    exact ⟨q, hs⟩
  · rintro t m t' hmembers hm ⟨q, hq, hs⟩ hmove
    exact hs.move hmembers hq hm hmove
  · refine ⟨fun _ => .outside, .init fun _ => rfl, fun h => absurd rfl h, fun _ => ?_,
      fun h => by simp at h, fun h => by simp [System.init] at h, ?_⟩
    · rintro ⟨item, hmem, -⟩
      simp [System.init] at hmem
    · intro pre item post heq
      simp [System.init] at heq

/-- `Recv` returns what was queued in order, with the `SessionEnded` of `endSession` once and
last: after it there is only `io.EOF` or the error of the context, and on a stream that the
relay ended `io.EOF` comes only after it. -/
structure EndsWithSessionEnded (s : Relay) (i : Nat) : Prop where
  inOrder : (s.streams i).returned ++ (s.streams i).sendCh.buf = (s.streams i).queued
  once : ∀ pre item post, (s.streams i).queued = pre ++ item :: post → item.endsStream = true →
    post = [] ∧ ∀ item' ∈ pre, item'.endsStream = false
  queued : (s.streams i).ended = true → (s.streams i).cancelled = false → (s.streams i).EndQueued
  after : (∃ item ∈ (s.streams i).returned, item.endsStream = true) →
    s.recv i = none ∧ ∀ r, (s.streams i).Receives r → r = .eof ∨ r = .canceled
  eof : (s.streams i).ended = true → (s.streams i).cancelled = false →
    (s.streams i).Receives .eof → ∃ pre item, (s.streams i).returned = pre ++ [item] ∧
      item.endsStream = true ∧ (s.streams i).returned = (s.streams i).queued

theorem sessionEnded_last
    (hguard : Machine.Guarded (System.step u cfg) (PutsBeforeEnd i) (System.init maxPeers) moves)
    (h : System.run u cfg (System.init maxPeers) moves = some t) :
    EndsWithSessionEnded t.shared i := by
  obtain ⟨q, hs⟩ := endsOnce_run hguard h
  have horder := (forwards_run h).received i
  have hqueued : (t.shared.streams i).ended = true → (t.shared.streams i).cancelled = false →
      (t.shared.streams i).EndQueued := by
    intro hended hcancelled
    exact (hs.after (Or.inr hended)).resolve_left (by simp [hcancelled])
  refine ⟨horder, ?_, hqueued, ?_, ?_⟩
  · intro pre item post heq hends
    obtain rfl := hs.last pre item post heq hends
    refine ⟨rfl, fun item' hmem => ?_⟩
    by_contra hends'
    obtain ⟨pre₁, pre₂, rfl⟩ := List.append_of_mem hmem
    have hlast := hs.last pre₁ item' (pre₂ ++ [item]) (by simpa using heq)
      (Bool.eq_true_of_not_eq_false hends')
    simp at hlast
  · rintro ⟨item, hmem, hends⟩
    obtain ⟨pre, post, hreturned⟩ := List.append_of_mem hmem
    have hlast := hs.last pre item (post ++ (t.shared.streams i).sendCh.buf)
      (by rw [← horder, hreturned]; simp) hends
    have hempty : (t.shared.streams i).sendCh.buf = [] := (List.append_eq_nil_iff.mp hlast).2
    refine ⟨?_, fun r hr => ?_⟩
    · rw [Relay.recv, Go.Chan.pop?_eq_none.mpr hempty]
      rfl
    · cases r with
      | event item' => simp [Stream.Receives, hempty] at hr
      | eof => exact Or.inl rfl
      | canceled => exact Or.inr rfl
  · rintro hended hcancelled ⟨hempty, -⟩
    obtain ⟨item, hmem, hends⟩ := hqueued hended hcancelled
    rw [hempty, List.append_nil] at horder
    obtain ⟨pre, post, heq⟩ := List.append_of_mem hmem
    obtain rfl := hs.last pre item post heq hends
    exact ⟨pre, item, horder.trans heq, hends, horder⟩

/-- A stream joins `s1`, its token expires, and it reads what it was sent. -/
def expireAndRecv : List Move :=
  List.flatten [
    .launch (.send 0 { action := some (.join { sessionId := "s1" }) }) ::
      List.replicate 19 (.run (.send 0) 0),
    .launch (.expire 0) :: List.replicate 16 (.run (.expiry 0) 0),
    [.launch (.recv 0), .launch (.recv 0)]]

/-- It is told that the session ended, and then only `io.EOF`. -/
theorem sessionEnded_last_expireAndRecv : ∃ t,
    System.run .unary (fun _ => { expires := true }) (System.init 10) expireAndRecv = some t ∧
    (t.shared.streams 0).Receives .eof ∧ ∃ pre item,
      (t.shared.streams 0).returned = pre ++ [item] ∧ item.endsStream = true := by
  have hrun : (Machine.execIf (System.step .unary fun _ => { expires := true }) (PutsBeforeEnd 0)
      (System.init 10) expireAndRecv).any (fun t =>
        (t.shared.streams 0).ended = true ∧ (t.shared.streams 0).cancelled = false ∧
        (t.shared.streams 0).sendCh.buf = []) = true := by
    decide +kernel
  obtain ⟨t, ht, hstate⟩ := (Option.any_eq_true _ _).mp hrun
  obtain ⟨hguard, ht⟩ := Machine.execIf_eq_some ht
  obtain ⟨hended, hcancelled, hempty⟩ := of_decide_eq_true hstate
  have heof : (t.shared.streams 0).Receives .eof := ⟨hempty, Or.inr hended⟩
  obtain ⟨pre, item, hreturned, hends, -⟩ :=
    (sessionEnded_last hguard ht).eof hended hcancelled heof
  exact ⟨t, ht, heof, pre, item, hreturned, hends⟩

/-- Two streams are in `s1`, and the bridge of the second has a message of the first in hand
when its token expires. -/
def forwardAfterExpiry : List Move :=
  List.flatten [
    .launch (.send 0 { action := some (.join { sessionId := "s1" }) }) ::
      List.replicate 19 (.run (.send 0) 0),
    .launch (.send 1 { action := some (.join { sessionId := "s1" }) }) ::
      List.replicate 21 (.run (.send 1) 0),
    .launch (.send 0 { action := some (.appMessage ⟨"cursor", [], []⟩) }) ::
      List.replicate 8 (.run (.send 0) 0),
    .launch (.bridge 1 "uuuu" .chan) :: .launch (.expire 1) ::
      List.replicate 17 (.run (.expiry 1) 0),
    [.launch (.bridge 1 "uuuu" .chan), .launch (.recv 1), .launch (.recv 1), .launch (.recv 1)]]

/-- `Recv` returns the message after the `SessionEnded`. -/
theorem eventAfterSessionEnded : ∃ t,
    System.run .unary (fun _ => { expires := true }) (System.init 10) forwardAfterExpiry = some t ∧
    (t.shared.streams 1).ended = true ∧ ∃ first item last,
      (t.shared.streams 1).returned = [first, item, last] ∧ item.endsStream = true := by
  have hrun : (System.run .unary (fun _ => { expires := true }) (System.init 10)
      forwardAfterExpiry).any (fun t => (t.shared.streams 1).ended = true ∧
        (t.shared.streams 1).returned.map Item.endsStream = [false, true, false]) = true := by
    decide +kernel
  obtain ⟨t, ht, hstate⟩ := (Option.any_eq_true _ _).mp hrun
  obtain ⟨hended, hreturned⟩ := of_decide_eq_true hstate
  obtain ⟨first, rest, hfirst, -, hrest⟩ := List.map_eq_cons_iff.mp hreturned
  obtain ⟨item, rest, rfl, hends, hrest⟩ := List.map_eq_cons_iff.mp hrest
  obtain ⟨last, rest, rfl, -, hrest⟩ := List.map_eq_cons_iff.mp hrest
  obtain rfl := List.map_eq_nil_iff.mp hrest
  exact ⟨t, ht, hended, first, item, last, hfirst, hends⟩

end Run

end MassRelay

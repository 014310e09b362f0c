import MassRelay.Server.Delivery

/-!
# MassRelay.Server.JoinOrder

Which comes first on a connection: the `RoomJoined` that answers its join, or an event
of the room.

`Send` starts the bridge of the new client before it queues the `RoomJoined`, and both
write `sendCh`, so nothing keeps a room event from overtaking the answer
(`eventOvertakesAnswer`). What decides is whether the bridge puts an event there while
the answer is outstanding. In a run in which none does (`BridgesWait`), `RoomJoined`
comes first (`roomJoined_first`).
-/

namespace MassRelay

open Threads CollabService

variable {u : UuidSource} {cfg : Nat → StreamConfig} {maxPeers : Int} {moves : List Move}
variable {t : System} {s s' : Relay} {g : Goroutine} {i : Nat}

/-! ### The order of a queue -/

/-- The `RoomJoined` that answers the join of client `c` is among `items`. -/
def AnswersJoin (items : List Item) (c : String) : Prop :=
  ∃ e rj, .reply e ∈ items ∧ e.event = .roomJoined rj ∧ rj.clientId = c

/-- No event of the room of a client comes before the `RoomJoined` of that client. -/
def JoinedFirst (items : List Item) : Prop :=
  ∀ pre c q post, items = pre ++ .room c q :: post → AnswersJoin pre c

/-- The client whose join the item answers. -/
def Item.joined? : Item → Option String
  | .reply ⟨_, _, .roomJoined rj⟩ => some rj.clientId
  | _ => none

theorem AnswersJoin.of_mem {items : List Item} {item : Item} {c : String} (hmem : item ∈ items)
    (h : item.joined? = some c) : AnswersJoin items c := by
  unfold Item.joined? at h
  split at h
  · exact ⟨_, _, hmem, rfl, Option.some.inj h⟩
  · simp at h

theorem AnswersJoin.append {items : List Item} {c : String} (h : AnswersJoin items c)
    (more : List Item) : AnswersJoin (items ++ more) c := by
  obtain ⟨e, rj, he, hrj, hc⟩ := h
  exact ⟨e, rj, List.mem_append_left _ he, hrj, hc⟩

theorem JoinedFirst.nil : JoinedFirst [] := by
  intro pre c q post h
  simp at h

theorem JoinedFirst.of_isPrefix {items items' : List Item} (h : items <+: items')
    (hfirst : JoinedFirst items') : JoinedFirst items := by
  obtain ⟨more, rfl⟩ := h
  rintro pre c q post rfl
  exact hfirst pre c q (post ++ more) (by simp)

/-- One more item: it answers a join, or is an event of a client whose join is
answered. -/
theorem JoinedFirst.snoc {items : List Item} {item : Item} (h : JoinedFirst items)
    (hitem : ∀ c q, item = .room c q → AnswersJoin items c) : JoinedFirst (items ++ [item]) := by
  intro pre c q post heq
  rcases List.eq_nil_or_concat post with rfl | ⟨post', last, rfl⟩
  · obtain ⟨rfl, hlast⟩ := List.append_inj' heq rfl
    exact hitem c q (List.singleton_inj.mp hlast)
  · have heq : items ++ [item] = (pre ++ .room c q :: post') ++ [last] := by simpa using heq
    exact h pre c q post' (List.append_inj' heq rfl).1

/-! ### The streams -/

/-- Every stream's queue is in order, and a join whose answer is not in it has its
answer outstanding. -/
structure Answers (s : Relay) : Prop where
  first : ∀ i, JoinedFirst (s.streams i).queued
  answered : s.panicked = false → ∀ {i c}, (s.streams i).Has c →
    c ∈ (s.streams i).unanswered ∨ AnswersJoin (s.streams i).queued c

/-- A change to one stream. -/
theorem Answers.modifyStream {f : Stream → Stream} (hs : Answers s)
    (hfirst : JoinedFirst (f (s.streams i)).queued)
    (hanswered : s.panicked = false → ∀ {c}, (f (s.streams i)).Has c →
      c ∈ (f (s.streams i)).unanswered ∨ AnswersJoin (f (s.streams i)).queued c) :
    Answers (s.modifyStream i f) := by
  refine ⟨fun j => ?_, fun hp j c hc => ?_⟩
  · by_cases hj : j = i
    · subst hj
      rwa [Relay.modifyStream_self]
    · rw [Relay.modifyStream_of_ne s f hj]
      exact hs.first j
  · by_cases hj : j = i
    · subst hj
      rw [Relay.modifyStream_self] at hc ⊢
      exact hanswered hp hc
    · rw [Relay.modifyStream_of_ne s f hj] at hc ⊢
      exact hs.answered hp hc

/-- A change that leaves what was put and what was answered as it is. -/
theorem Answers.same {f : Stream → Stream} (hs : Answers s)
    (hqueued : (f (s.streams i)).queued = (s.streams i).queued)
    (hanswered : (f (s.streams i)).answered = (s.streams i).answered)
    (hunanswered : (f (s.streams i)).unanswered = (s.streams i).unanswered) :
    Answers (s.modifyStream i f) := by
  refine hs.modifyStream (hqueued ▸ hs.first i) fun hp {c} hc => ?_
  rw [Stream.has_congr hanswered] at hc
  rw [hqueued, hunanswered]
  exact hs.answered hp hc

theorem Answers.crash (hs : Answers s) : Answers { s with panicked := true } :=
  ⟨hs.first, fun hp => by simp at hp⟩

theorem Answers.put? {item : Item} (hs : Answers s)
    (hitem : ∀ c q, item = .room c q → AnswersJoin (s.streams i).queued c)
    (h : s.put? i item = some s') : Answers s' := by
  rcases Relay.put?_cases h with ⟨-, rfl⟩ | ⟨-, ch, -, rfl⟩
  · exact hs.crash
  · refine hs.modifyStream ((hs.first i).snoc hitem) fun hp {c} hc => ?_
    exact (hs.answered hp hc).imp_right fun h => h.append _

theorem Answers.reply {e : CollabEvent} {n : Nat} {queued : Bool} (hs : Answers s)
    (h : s.reply i e n = some (s', queued)) : Answers s' := by
  unfold Relay.reply at h
  split at h
  · obtain ⟨s₁, hput, heq⟩ := Option.map_eq_some_iff.mp h
    obtain ⟨rfl, -⟩ := Prod.mk.inj heq
    have hs₁ := hs.put? (fun _ _ heq => by simp at heq) hput
    unfold Relay.noteReplied
    split
    · rename_i rj he
      refine hs₁.modifyStream (hs₁.first i) fun hp {c} hc => ?_
      -- the answer that is no longer outstanding is the one just put
      by_cases hrj : c = rj.clientId
      · right
        rcases Relay.put?_cases hput with ⟨-, rfl⟩ | ⟨-, ch, -, rfl⟩
        · simp at hp
        · exact ⟨e, rj, by simp, he, hrj.symm⟩
      · refine (hs₁.answered hp hc).imp_left fun hmem => ?_
        exact List.mem_filter.mpr ⟨hmem, by simpa using hrj⟩
    · exact hs₁
  · split at h
    · obtain ⟨rfl, -⟩ := Prod.mk.inj (Option.some.inj h)
      exact hs
    · simp at h

theorem Answers.stream {n : Nat} {o : StreamOp} {a : o.Res} (hs : Answers s)
    (h : o.apply i n s = some (s', a)) : Answers s' := by
  cases o with
  | store rj =>
    obtain ⟨rfl, -⟩ := Prod.mk.inj (Option.some.inj h)
    refine hs.modifyStream (hs.first i) ?_
    rintro hp c ⟨rj', hrj', hc⟩
    rcases List.mem_append.mp hrj' with hrj' | hrj'
    · exact (hs.answered hp ⟨rj', hrj', hc⟩).imp_left (List.mem_cons_of_mem _)
    · obtain rfl := List.mem_singleton.mp hrj'
      exact Or.inl (hc ▸ List.mem_cons_self)
  | reply e => exact hs.reply h
  | onceEnter =>
    simp only [StreamOp.apply] at h
    split at h
    · obtain ⟨rfl, -⟩ := Prod.mk.inj (Option.some.inj h)
      exact hs.same rfl rfl rfl
    · simp at h
    · obtain ⟨rfl, -⟩ := Prod.mk.inj (Option.some.inj h)
      exact hs
  | closeSendCh =>
    simp only [StreamOp.apply] at h
    split at h
    · obtain ⟨rfl, -⟩ := Prod.mk.inj (Option.some.inj h)
      exact hs.crash
    · obtain ⟨rfl, -⟩ := Prod.mk.inj (Option.some.inj h)
      exact hs.same rfl rfl rfl
  | allow | readClientId =>
    obtain ⟨rfl, -⟩ := Prod.mk.inj (Option.some.inj h)
    exact hs
  | goBridge _ | onceExit | closeEnded | clear | stopExpiry =>
    obtain ⟨rfl, -⟩ := Prod.mk.inj (Option.some.inj h)
    exact hs.same rfl rfl rfl

/-! ### The bridges -/

/-- The event that a bridge has in hand. -/
def Bridge.held? : Bridge → Option Queued
  | .holding q => some q
  | .evicting held => held
  | _ => none

/-- No bridge puts the event it has in hand on `sendCh` while the `RoomJoined` of its
client is still to be queued. -/
def BridgesWait (t : System) : Move → Prop
  | .launch (.bridge i c .chan) => ((t.shared.streams i).bridges c).held?.isSome →
    c ∉ (t.shared.streams i).unanswered
  | _ => True

instance (t : System) (m : Move) : Decidable (BridgesWait t m) := by
  unfold BridgesWait
  split <;> infer_instance

/-- Only the channel case of a bridge's `select` puts an event on `sendCh`. -/
theorem Relay.bridgeStep_of_ne_chan {c : String} {b : Bridge} {choice : Choice}
    {start : Option (Goroutine × Proc Unit)} (hchoice : choice ≠ .chan)
    (h : s.bridgeStep i c b choice = some (s', start)) : ∃ b', s' = s.setBridge i c b' := by
  have hguard : ∀ {ready : Bool} {b' : Bridge},
      (if ready then some (s.setBridge i c b', (none : Option (Goroutine × Proc Unit))) else none) =
        some (s', start) → ∃ b', s' = s.setBridge i c b' := by
    intro ready b' h
    split at h
    · obtain ⟨rfl, -⟩ := Prod.mk.inj (Option.some.inj h)
      exact ⟨b', rfl⟩
    · simp at h
  cases choice with
  | chan => exact absurd rfl hchoice
  | slow | done =>
    cases b with
    | forwarding | holding q => exact hguard h
    | off | evicting held | ending | ended => simp [Relay.bridgeStep] at h

theorem Answers.bridge {c : String} {choice : Choice} {start : Option (Goroutine × Proc Unit)}
    (hinv : Relay.Members u cfg s) (hs : Answers s) (hp : s.panicked = false)
    (hwait : choice = .chan → ((s.streams i).bridges c).held?.isSome →
      c ∉ (s.streams i).unanswered)
    (h : s.bridgeStep i c ((s.streams i).bridges c) choice = some (s', start)) : Answers s' := by
  by_cases hchoice : choice = .chan
  · have hjoined : ((s.streams i).bridges c).held?.isSome →
        AnswersJoin (s.streams i).queued c := by
      intro hheld
      have hhas : (s.streams i).Has c :=
        hinv.bridges fun hoff => by simp [hoff, Bridge.held?] at hheld
      exact (hs.answered hp hhas).resolve_left (hwait hchoice hheld)
    have heffect := Relay.bridgeStep_effect h
    generalize (s.streams i).bridges c = b at heffect hjoined
    cases heffect with
    | @take _ _ _ svc _ _ =>
      have hs' : Answers { s with svc } := ⟨hs.first, hs.answered⟩
      exact hs'.same rfl rfl rfl
    | put hput hbridge =>
      refine (hs.put? ?_ hput).same rfl rfl rfl
      rintro c' q' heq
      obtain ⟨rfl, -⟩ := Item.room.inj heq
      rcases hbridge with ⟨rfl, -⟩ | ⟨rfl, -⟩ <;> exact hjoined rfl
    | slow _ _ | stop _ | evict => exact hs.same rfl rfl rfl
  · obtain ⟨b', rfl⟩ := Relay.bridgeStep_of_ne_chan hchoice h
    exact hs.same rfl rfl rfl

theorem Answers.launch {m : Launch} {start : Option (Goroutine × Proc Unit)}
    (ht : Relay.Members u cfg t.shared) (hs : Answers t.shared) (hwait : BridgesWait t (.launch m))
    (h : m.launch cfg t.shared = some (s', start)) : Answers s' := by
  obtain ⟨hcrash, happly⟩ := Launch.launch_eq_some h
  cases m with
  | recv i =>
    obtain ⟨s₁, hrecv, heq⟩ := Option.map_eq_some_iff.mp happly
    obtain ⟨rfl, -⟩ := Prod.mk.inj heq
    obtain ⟨⟨item, ch⟩, -, rfl⟩ := Option.map_eq_some_iff.mp hrecv
    exact hs.same rfl rfl rfl
  | bridge i c choice =>
    refine hs.bridge ht (panicked_of_crashed hcrash) ?_ happly
    rintro rfl
    exact hwait
  | watchClose i | expire i =>
    simp only [Launch.apply] at happly
    split at happly
    · obtain ⟨rfl, -⟩ := Prod.mk.inj (Option.some.inj happly)
      exact hs.same rfl rfl rfl
    · simp at happly
  | cancel i =>
    obtain ⟨rfl, -⟩ := Prod.mk.inj (Option.some.inj happly)
    exact hs.same rfl rfl rfl
  | send _ _ | closeSend _ _ | direct _ _ =>
    obtain ⟨rfl, -⟩ := Prod.mk.inj (Option.some.inj happly)
    exact hs

/-! ### Runs -/

theorem answers_run
    (hwait : Machine.Guarded (System.step u cfg) BridgesWait (System.init maxPeers) moves)
    (h : System.run u cfg (System.init maxPeers) moves = some t) : Answers t.shared := by
  refine Relay.membership_sound.also (fun _ => Relay.membership_ok) ?_
    (fun ht hm hs hl => hs.launch ht.inv hm hl) (Relay.membership_init maxPeers) ?_ hwait h
  · intro t g n o k s r ht _ hg hs hx
    cases o with
    | service o =>
      rw [(Op.exec_service hx).2.2]
      exact ⟨hs.first, hs.answered⟩
    | stream i o => exact hs.stream (Op.exec_stream hx).2
  · exact ⟨fun _ => .nil, fun _ {i c} hc => by simp [Stream.Has, System.init] at hc⟩

/-- In a run whose bridges wait for the answer, `Recv` returns the `RoomJoined` of a
client before any event of its room. -/
theorem roomJoined_first
    (hwait : Machine.Guarded (System.step u cfg) BridgesWait (System.init maxPeers) moves)
    (h : System.run u cfg (System.init maxPeers) moves = some t) (i : Nat) :
    JoinedFirst (t.shared.streams i).returned := by
  have hreturned : (t.shared.streams i).returned <+: (t.shared.streams i).queued :=
    (forwards_run h).received i ▸ List.prefix_append _ _
  exact ((answers_run hwait h).first i).of_isPrefix hreturned

/-- The first stream gets its `RoomJoined` and then the `PeerJoined` of the second. -/
theorem roomJoined_first_joinAndRecv : ∃ t,
    System.run .unary (fun _ => {}) (System.init 10) joinAndRecv = some t ∧
    (roomItems "u" (t.shared.streams 0).returned).length = 1 ∧
    JoinedFirst (t.shared.streams 0).returned := by
  have hrun : (Machine.execIf (System.step .unary fun _ => {}) BridgesWait (System.init 10)
      joinAndRecv).any (fun t => (roomItems "u" (t.shared.streams 0).returned).length = 1) =
      true := by
    decide +kernel
  obtain ⟨t, ht, hlength⟩ := (Option.any_eq_true _ _).mp hrun
  obtain ⟨hwait, ht⟩ := Machine.execIf_eq_some ht
  exact ⟨t, ht, of_decide_eq_true hlength, roomJoined_first hwait ht 0⟩

/-- Stream 0 is in `s1` when stream 1 joins it. The second join has started its bridge
but not queued its answer when the first stream sends a message to the room. -/
def sendDuringJoin : List Move :=
  List.flatten [
    .launch (.send 0 { action := some (.join { sessionId := "s1" }) }) ::
      List.replicate 19 (.run (.send 0) 0),
    .launch (.send 1 { action := some (.join { sessionId := "s1" }) }) ::
      List.replicate 20 (.run (.send 1) 0),
    .launch (.send 0 { action := some (.appMessage ⟨"cursor", [], []⟩) }) ::
      List.replicate 8 (.run (.send 0) 0),
    [.launch (.bridge 1 "uuuu" .chan), .launch (.bridge 1 "uuuu" .chan), .launch (.recv 1)]]

/-- The second stream gets that message first. -/
theorem eventOvertakesAnswer : ∃ t,
    System.run .unary (fun _ => {}) (System.init 10) sendDuringJoin = some t ∧
    ¬ JoinedFirst (t.shared.streams 1).returned := by
  have hrun : (System.run .unary (fun _ => {}) (System.init 10) sendDuringJoin).any (fun t =>
      (t.shared.streams 1).returned.head?.any fun item =>
        (Item.from? "uuuu" item).isSome) = true := by
    decide +kernel
  obtain ⟨t, ht, hhead⟩ := (Option.any_eq_true _ _).mp hrun
  refine ⟨t, ht, fun hfirst => ?_⟩
  obtain ⟨item, hitem, hroom⟩ := (Option.any_eq_true _ _).mp hhead
  obtain ⟨rest, hreturned⟩ := List.head?_eq_some_iff.mp hitem
  cases item with
  | room c q =>
    obtain ⟨e, rj, he, -⟩ := hfirst [] c q rest hreturned
    simp at he
  | reply e => simp [Item.from?] at hroom

end MassRelay

import MassRelay.Server.Membership

/-!
# MassRelay.Server.Delivery

What `Recv` returns, compared with what was sent.

An event for a client goes through two bounded queues: the client's `SendCh`, where
`deliver` puts it, and the `sendCh` of its stream, where the client's bridge does.
`MassRelay.Services.Deliveries` settles the first. The second is filled by a single
bridge, started once (`Forwards`), which takes the events in order and holds at most
one of them; when it stops, what it passed on is a prefix of what it took.
-/

namespace MassRelay

open Threads CollabService

variable {u : UuidSource} {cfg : Nat → StreamConfig} {s s' : Relay} {g : Goroutine} {i : Nat}
variable {maxPeers : Int} {moves : List Move} {t : System}

/-! ### The first queue -/

theorem deliveries_serviceSound : ServiceSound u (deliveries u) where
  refl := .refl u _ _
  trans h h' := h.trans h'
  idle_stable h hs := hs.rely h
  guarantee _ _ _ hx hne := (CollabService.apply_effect (exec_eq_some hx).2).rely hne
  take {s₁ s₂ c q} hinv h := by
    have hrely : ∀ g, Rely u g s₁ s₂ := fun g => .take? h
    refine ⟨⟨hinv.1.take? h, ?_, ?_, ?_, ?_⟩, hrely⟩
    · intro g c'
      have := hinv.2.queued_isPrefix g c'
      rw [queuedFrom, sentTo] at this ⊢
      rw [take?_enqueued h, take?_sent h]
      exact this
    · intro m hm
      rw [take?_missed h] at hm
      obtain ⟨hissued, hslow⟩ := hinv.2.missed hm
      exact ⟨hissued.mono (hrely (.direct 0)).nextUuid,
        ((hrely (.direct 0)).client hissued).slow hslow⟩
    · intro m hm q' hq'
      rw [take?_missed h] at hm
      rw [take?_enqueued h] at hq'
      exact hinv.2.later hm q' hq'
    · intro c' q' hq'
      rw [take?_enqueued h] at hq'
      rw [take?_sent h]
      exact hinv.2.calls hq'

theorem deliveries_callsKeep (g : Goroutine) :
    CallsKeep u (deliveries u) g ((deliveries u).idle g) where
  stable h hs := Settled.rely h hs
  uuid := plain_keeps rfl
  getClient sid c := by
    refine .bind (plain_keeps rfl) fun room => ?_
    cases room with
    | none => exact .ret _
    | some r => exact plain_keeps rfl
  handleAction := handleAction_keeps

theorem deliveries_sound :
    Sound (Op.exec u) (Launch.launch cfg) (Relay.lift True (deliveries u)) :=
  deliveries_serviceSound.lift deliveries_callsKeep fun _ _ => deliverAppMessage_keeps

theorem deliveries_guarded {t : System} {moves : List Move} :
    Machine.Guarded (System.step u cfg) (Relay.lift True (deliveries u)).Ok t moves := by
  refine Machine.guarded_of_forall fun m _ t => ?_
  cases m with
  | run g n =>
    intro o _ _
    cases o <;> trivial
  | launch m => cases m <;> trivial

theorem deliveries_init (maxPeers : Int) :
    Holds (Op.exec u) (Relay.lift True (deliveries u)) (System.init maxPeers) := by
  refine .init ⟨.new maxPeers, ?_, ?_, ?_, ?_⟩ fun g => Or.inr ⟨?_, ?_, ?_⟩
  · exact fun g c => List.nil_prefix
  · exact fun hm => absurd hm List.not_mem_nil
  · exact fun hm => absurd hm List.not_mem_nil
  · exact fun hq => absurd hq List.not_mem_nil
  · exact fun hd => absurd hd List.not_mem_nil
  · exact fun _ => rfl
  · exact fun _ => rfl

/-- In every run the clients' queues are in order. -/
theorem deliveries_holds (h : System.run u cfg (System.init maxPeers) moves = some t) :
    Holds (Op.exec u) (Relay.lift True (deliveries u)) t :=
  deliveries_sound.holds (deliveries_init maxPeers) deliveries_guarded h

/-! ### The second queue -/

/-- The event of client `c` that an item of a stream's queue passes on. -/
def Item.from? (c : String) : Item → Option Queued
  | .room c' q => if c' = c then some q else none
  | .reply _ => none

/-- The events of client `c` among the items of a stream's queue. -/
def roomItems (c : String) (items : List Item) : List Queued := items.filterMap (Item.from? c)

theorem roomItems_append_self (c : String) (items : List Item) (q : Queued) :
    roomItems c (items ++ [.room c q]) = roomItems c items ++ [q] := by
  simp [roomItems, Item.from?]

theorem roomItems_append_of_ne {c c' : String} (items : List Item) (q : Queued) (h : c' ≠ c) :
    roomItems c (items ++ [.room c' q]) = roomItems c items := by
  simp [roomItems, Item.from?, h]

/-- What the bridge of a client has passed on of what it took. -/
def Passed : Bridge → List Queued → List Queued → Prop
  | .off, passed, _ => passed = []
  | .forwarding, passed, taken | .evicting none, passed, taken => passed = taken
  | .holding q, passed, taken | .evicting (some q), passed, taken => passed ++ [q] = taken
  | .ending, passed, taken | .ended, passed, taken => passed <+: taken

theorem Passed.isPrefix {b : Bridge} {passed taken : List Queued} (h : Passed b passed taken) :
    passed <+: taken := by
  unfold Passed at h
  split at h
  · exact h ▸ List.nil_prefix
  · exact h ▸ List.prefix_rfl
  · exact h ▸ List.prefix_rfl
  · exact h ▸ List.prefix_append _ _
  · exact h ▸ List.prefix_append _ _
  · exact h
  · exact h

/-- A stream's queue holds what was put on it and not returned yet, and its room events
are what the bridges took, in order. -/
structure Forwards (s : Relay) : Prop where
  received : ∀ i, (s.streams i).returned ++ (s.streams i).sendCh.buf = (s.streams i).queued
  ordered : ∀ i c, roomItems c (s.streams i).queued <+: (s.svc.clientAt c).taken
  passed : s.panicked = false → ∀ i c, Passed ((s.streams i).bridges c)
    (roomItems c (s.streams i).queued) (s.svc.clientAt c).taken
  untaken : ∀ {c}, (∀ i, (s.streams i).bridges c = .off) → (s.svc.clientAt c).taken = []

/-- A change to one stream. -/
theorem Forwards.modifyStream {f : Stream → Stream} (hs : Forwards s)
    (hreceived : (f (s.streams i)).returned ++ (f (s.streams i)).sendCh.buf =
      (f (s.streams i)).queued)
    (hordered : ∀ c, roomItems c (f (s.streams i)).queued <+: (s.svc.clientAt c).taken)
    (hpassed : s.panicked = false → ∀ c, Passed ((f (s.streams i)).bridges c)
      (roomItems c (f (s.streams i)).queued) (s.svc.clientAt c).taken)
    (hbridges : ∀ c, (f (s.streams i)).bridges c = .off → (s.streams i).bridges c = .off) :
    Forwards (s.modifyStream i f) := by
  refine ⟨fun j => ?_, fun j c => ?_, fun hp j c => ?_, fun {c} hoff => hs.untaken fun j => ?_⟩
  · by_cases hj : j = i
    · subst hj
      rw [Relay.modifyStream_self]
      exact hreceived
    · rw [Relay.modifyStream_of_ne s f hj]
      exact hs.received j
  · by_cases hj : j = i
    · subst hj
      rw [Relay.modifyStream_self]
      exact hordered c
    · rw [Relay.modifyStream_of_ne s f hj]
      exact hs.ordered j c
  · by_cases hj : j = i
    · subst hj
      rw [Relay.modifyStream_self]
      exact hpassed hp c
    · rw [Relay.modifyStream_of_ne s f hj]
      exact hs.passed hp j c
  · have hoff := hoff j
    by_cases hj : j = i
    · subst hj
      rw [Relay.modifyStream_self] at hoff
      exact hbridges c hoff
    · rwa [Relay.modifyStream_of_ne s f hj] at hoff

/-- A change that leaves the queues and the bridges as they are. -/
structure SameQueues (s s' : Relay) : Prop where
  svc : s'.svc = s.svc
  panicked : s.panicked = true → s'.panicked = true
  returned : ∀ i, (s'.streams i).returned = (s.streams i).returned
  buf : ∀ i, (s'.streams i).sendCh.buf = (s.streams i).sendCh.buf
  queued : ∀ i, (s'.streams i).queued = (s.streams i).queued
  bridges : ∀ i, (s'.streams i).bridges = (s.streams i).bridges

theorem SameQueues.modifyStream (s : Relay) {f : Stream → Stream}
    (hreturned : (f (s.streams i)).returned = (s.streams i).returned)
    (hbuf : (f (s.streams i)).sendCh.buf = (s.streams i).sendCh.buf)
    (hqueued : (f (s.streams i)).queued = (s.streams i).queued)
    (hbridges : (f (s.streams i)).bridges = (s.streams i).bridges) :
    SameQueues s (s.modifyStream i f) := by
  refine ⟨rfl, id, fun j => ?_, fun j => ?_, fun j => ?_, fun j => ?_⟩
  all_goals
    by_cases hj : j = i
    · subst hj
      rwa [Relay.modifyStream_self]
    · rw [Relay.modifyStream_of_ne s f hj]

theorem Forwards.same (hs : Forwards s) (h : SameQueues s s') : Forwards s' := by
  refine ⟨fun j => ?_, fun j c => ?_, fun hp j c => ?_, fun {c} hoff => ?_⟩
  · rw [h.returned, h.buf, h.queued]
    exact hs.received j
  · rw [h.queued, h.svc]
    exact hs.ordered j c
  · rw [h.bridges, h.queued, h.svc]
    exact hs.passed (Bool.eq_false_of_not_eq_true fun hp' => by simp [h.panicked hp'] at hp) j c
  · rw [h.svc]
    exact hs.untaken fun j => h.bridges j ▸ hoff j

/-- The process goes down: nothing is put or taken. -/
theorem SameQueues.crash (s : Relay) : SameQueues s { s with panicked := true } :=
  ⟨rfl, fun _ => rfl, fun _ => rfl, fun _ => rfl, fun _ => rfl, fun _ => rfl⟩

theorem Forwards.put? {item : Item} (hs : Forwards s)
    (hitem : ∀ c, Item.from? c item = none) (h : s.put? i item = some s') : Forwards s' := by
  rcases Relay.put?_cases h with ⟨-, rfl⟩ | ⟨-, ch, hpush, rfl⟩
  · exact hs.same (.crash s)
  · have hsame : ∀ c, roomItems c ((s.streams i).queued ++ [item]) =
        roomItems c (s.streams i).queued := by
      intro c
      simp [roomItems, hitem c]
    refine hs.modifyStream ?_ (fun c => ?_) (fun hp c => ?_) fun _ h => h
    · dsimp only
      rw [(Go.Chan.push?_eq_some hpush).1, ← List.append_assoc, hs.received]
    · rw [hsame]
      exact hs.ordered i c
    · rw [hsame]
      exact hs.passed hp i c

/-! ### Steps of the relay keep the second queue in order -/

theorem Forwards.service {n : Nat} {o : ServiceOp} {a : o.Res} (hinv : Relay.Members u cfg s)
    (hs : Forwards s) (h : (Op.service o).exec u g n s = some (s', a)) : Forwards s' := by
  obtain ⟨hcrash, happly, heq⟩ := Op.exec_service h
  have htaken : ∀ c, (s'.svc.clientAt c).taken = (s.svc.clientAt c).taken := by
    intro c
    rcases (CollabService.apply_effect happly).taken c with heq | ⟨rfl, hnil⟩
    · exact heq
    -- nobody has a bridge for an id that is only now handed out
    · refine hnil.trans (hs.untaken fun j => ?_).symm
      by_contra hon
      obtain ⟨rj, hrj, hc⟩ := hinv.bridges hon
      exact uuid_not_issued (hc ▸ (hinv.answered hrj).issued)
  rw [heq]
  refine ⟨hs.received, fun j c => ?_, fun hp j c => ?_, fun {c} hoff => ?_⟩
  · dsimp only
    rw [htaken]
    exact hs.ordered j c
  · dsimp only
    rw [htaken]
    exact hs.passed hp j c
  · dsimp only
    rw [htaken]
    exact hs.untaken hoff

theorem panicked_of_crashed (h : s.crashed = false) : s.panicked = false := by
  simp only [Relay.crashed, Bool.or_eq_false_iff] at h
  exact h.1

theorem Forwards.reply {e : CollabEvent} {n : Nat} {queued : Bool} (hs : Forwards s)
    (h : s.reply i e n = some (s', queued)) : Forwards s' := by
  unfold Relay.reply at h
  split at h
  · obtain ⟨s₁, hput, heq⟩ := Option.map_eq_some_iff.mp h
    obtain ⟨rfl, -⟩ := Prod.mk.inj heq
    have hs₁ := hs.put? (fun _ => rfl) hput
    unfold Relay.noteReplied
    split
    · exact hs₁.same (.modifyStream s₁ rfl rfl rfl rfl)
    · exact hs₁
  · split at h
    · obtain ⟨rfl, -⟩ := Prod.mk.inj (Option.some.inj h)
      exact hs
    · simp at h

/-- A bridge that is started has taken nothing yet. -/
theorem Forwards.goBridge {c : String} (hinv : Relay.Members u cfg s) (hs : Forwards s)
    (hhas : (s.streams i).Has c)
    (hoff : (s.streams i).bridges c = .off) :
    Forwards (s.modifyStream i fun st =>
      { st with bridges := Function.update st.bridges c .forwarding }) := by
  refine hs.modifyStream (hs.received i) (hs.ordered i) ?_ ?_
  · intro hp c'
    by_cases hc : c' = c
    · subst hc
      have hnone : roomItems c' (s.streams i).queued = [] := by
        have := hs.passed hp i c'
        rwa [hoff] at this
      have htaken : (s.svc.clientAt c').taken = [] := by
        refine hs.untaken fun j => ?_
        by_contra hon
        obtain rfl := hinv.has_unique hhas (hinv.bridges hon)
        exact hon hoff
      simp only [Function.update_self]
      exact hnone.trans htaken.symm
    · simp only [Function.update_of_ne hc]
      exact hs.passed hp i c'
  · intro c' hc'
    by_cases hc : c' = c
    · subst hc
      exact hoff
    · simpa [hc] using hc'

theorem Forwards.stream {n : Nat} {o : StreamOp} {a : o.Res} (hinv : Relay.Members u cfg s)
    (hreq : Relay.StreamRequires u g i s o) (hs : Forwards s)
    (h : (Op.stream i o).exec u g n s = some (s', a)) : Forwards s' := by
  obtain ⟨-, happly⟩ := Op.exec_stream h
  cases o with
  | goBridge c =>
    obtain ⟨rfl, -⟩ := Prod.mk.inj (Option.some.inj happly)
    exact hs.goBridge hinv hreq.2.1 hreq.2.2
  | reply e => exact hs.reply happly
  | onceEnter =>
    simp only [StreamOp.apply] at happly
    split at happly
    · obtain ⟨rfl, -⟩ := Prod.mk.inj (Option.some.inj happly)
      exact hs.same (.modifyStream s rfl rfl rfl rfl)
    · simp at happly
    · obtain ⟨rfl, -⟩ := Prod.mk.inj (Option.some.inj happly)
      exact hs
  | closeSendCh =>
    simp only [StreamOp.apply] at happly
    split at happly
    · obtain ⟨rfl, -⟩ := Prod.mk.inj (Option.some.inj happly)
      exact hs.same (.crash s)
    · obtain ⟨rfl, -⟩ := Prod.mk.inj (Option.some.inj happly)
      exact hs.same (.modifyStream s rfl rfl rfl rfl)
  | allow | readClientId =>
    obtain ⟨rfl, -⟩ := Prod.mk.inj (Option.some.inj happly)
    exact hs
  | store _ | onceExit | closeEnded | clear | stopExpiry =>
    obtain ⟨rfl, -⟩ := Prod.mk.inj (Option.some.inj happly)
    exact hs.same (.modifyStream s rfl rfl rfl rfl)

/-- A bridge moves on without touching a queue. -/
theorem Forwards.setBridge {c : String} {b : Bridge} (hs : Forwards s)
    (hb : s.panicked = false →
      Passed b (roomItems c (s.streams i).queued) (s.svc.clientAt c).taken)
    (hoff : b ≠ .off) : Forwards (s.setBridge i c b) := by
  refine hs.modifyStream (hs.received i) (hs.ordered i) ?_ ?_
  · intro hp c'
    by_cases hc : c' = c
    · subst hc
      simpa only [Function.update_self] using hb hp
    · simp only [Function.update_of_ne hc]
      exact hs.passed hp i c'
  · intro c' hc'
    by_cases hc : c' = c
    · subst hc
      exact absurd (by simpa using hc') hoff
    · simpa [hc] using hc'

/-- The bridge takes an event, and has it in hand. -/
theorem Forwards.take {c : String} {b' : Bridge} {q : Queued} {svc : CollabService}
    (hinv : Relay.Members u cfg s) (hs : Forwards s) (hp : s.panicked = false)
    (htake : s.svc.take? c = some (q, svc)) (hon : (s.streams i).bridges c ≠ .off)
    (hb : ∀ {passed taken}, Passed ((s.streams i).bridges c) passed taken →
      Passed b' passed (taken ++ [q])) (hoff : b' ≠ .off) :
    Forwards (Relay.setBridge { s with svc } i c b') := by
  obtain ⟨hself, hother⟩ := take?_taken htake
  have hpassed : ∀ j c', Passed (((Relay.setBridge { s with svc } i c b').streams j).bridges c')
      (roomItems c' ((Relay.setBridge { s with svc } i c b').streams j).queued)
      (svc.clientAt c').taken := by
    intro j c'
    have hold := hs.passed hp j c'
    by_cases hj : j = i
    · subst hj
      simp only [Relay.setBridge, Relay.modifyStream_self]
      by_cases hc : c' = c
      · subst hc
        rw [Function.update_self, hself]
        exact hb hold
      · rw [Function.update_of_ne hc, hother c' hc]
        exact hold
    · simp only [Relay.setBridge, Relay.modifyStream_of_ne _ _ hj]
      by_cases hc : c' = c
      -- no other stream has a bridge for this client
      · subst hc
        have hnone : (s.streams j).bridges c' = .off := by
          by_contra hon'
          exact hj (hinv.has_unique (hinv.bridges hon') (hinv.bridges hon))
        rw [hnone] at hold ⊢
        exact hold
      · rw [hother c' hc]
        exact hold
  refine ⟨fun j => ?_, fun j c' => (hpassed j c').isPrefix, fun _ => hpassed, fun {c'} hall => ?_⟩
  · by_cases hj : j = i
    · subst hj
      simpa only [Relay.setBridge, Relay.modifyStream_self] using hs.received j
    · simpa only [Relay.setBridge, Relay.modifyStream_of_ne _ _ hj] using hs.received j
  · by_cases hc : c' = c
    · subst hc
      have := hall i
      simp only [Relay.setBridge, Relay.modifyStream_self, Function.update_self] at this
      exact absurd this hoff
    · show (svc.clientAt c').taken = []
      rw [hother c' hc]
      refine hs.untaken fun j => ?_
      have := hall j
      by_cases hj : j = i
      · subst hj
        simpa only [Relay.setBridge, Relay.modifyStream_self, Function.update_of_ne hc] using this
      · simpa only [Relay.setBridge, Relay.modifyStream_of_ne _ _ hj] using this

/-- The bridge passes on the event it has in hand. -/
theorem Forwards.pass {c : String} {b' : Bridge} {q : Queued} {s₁ : Relay} (hs : Forwards s)
    (hp : s.panicked = false) (hput : s.put? i (.room c q) = some s₁)
    (hheld : roomItems c (s.streams i).queued ++ [q] = (s.svc.clientAt c).taken)
    (hb : ∀ {passed taken}, passed = taken → Passed b' passed taken) (hoff : b' ≠ .off) :
    Forwards (s₁.setBridge i c b') := by
  rcases Relay.put?_cases hput with ⟨-, rfl⟩ | ⟨-, ch, hpush, rfl⟩
  · exact (hs.same (.crash s)).setBridge (fun hp => by simp at hp) hoff
  · have hpassed : ∀ c', Passed (Function.update (s.streams i).bridges c b' c')
        (roomItems c' ((s.streams i).queued ++ [.room c q])) (s.svc.clientAt c').taken := by
      intro c'
      by_cases hc : c' = c
      · subst hc
        rw [Function.update_self, roomItems_append_self]
        exact hb hheld
      · rw [Function.update_of_ne hc, roomItems_append_of_ne _ _ (Ne.symm hc)]
        exact hs.passed hp i c'
    rw [Relay.setBridge, Relay.modifyStream_modifyStream]
    refine hs.modifyStream ?_ (fun c' => (hpassed c').isPrefix) (fun _ => hpassed) ?_
    · dsimp only
      rw [(Go.Chan.push?_eq_some hpush).1, ← List.append_assoc, hs.received]
    · intro c' hc'
      by_cases hc : c' = c
      · subst hc
        exact absurd (by simpa using hc') hoff
      · simpa [hc] using hc'

theorem Forwards.bridge {c : String} {start : Option (Goroutine × Proc Unit)}
    (hinv : Relay.Members u cfg s) (hs : Forwards s) (hp : s.panicked = false)
    (h : BridgeEffect s i c ((s.streams i).bridges c) s' start) : Forwards s' := by
  have hold := hs.passed hp i c
  generalize hbridge : (s.streams i).bridges c = b at h
  cases h with
  | take htake hb =>
    refine hs.take hinv hp htake ?_ ?_ ?_
    · rcases hb with ⟨rfl, -⟩ | ⟨rfl, -⟩ <;> simp [hbridge]
    · intro passed taken hpassed
      rw [hbridge] at hpassed
      rcases hb with ⟨rfl, rfl⟩ | ⟨rfl, rfl⟩ <;> exact congrArg (· ++ [_]) hpassed
    · rcases hb with ⟨-, rfl⟩ | ⟨-, rfl⟩ <;> simp
  | put hput hb =>
    rw [hbridge] at hold
    refine hs.pass hp hput ?_ ?_ ?_
    · rcases hb with ⟨rfl, -⟩ | ⟨rfl, -⟩ <;> exact hold
    · intro passed taken hpassed
      rcases hb with ⟨-, rfl⟩ | ⟨-, rfl⟩ <;> exact hpassed
    · rcases hb with ⟨-, rfl⟩ | ⟨-, rfl⟩ <;> simp
  | slow _ hb =>
    rw [hbridge] at hold
    refine hs.setBridge (fun _ => ?_) ?_
    · rcases hb with ⟨rfl, rfl⟩ | ⟨q, rfl, rfl⟩ <;> exact hold
    · rcases hb with ⟨-, rfl⟩ | ⟨q, -, rfl⟩ <;> simp
  | stop hb =>
    refine hs.setBridge (fun _ => ?_) ?_
    · rcases hb with ⟨-, rfl⟩ | ⟨held, -, rfl⟩ <;> exact hold.isPrefix
    · rcases hb with ⟨-, rfl⟩ | ⟨held, -, rfl⟩ <;> simp
  | evict => exact hs.setBridge (fun _ => hold.isPrefix) (by simp)

theorem Forwards.launch {m : Launch} {start : Option (Goroutine × Proc Unit)}
    (hinv : Relay.Members u cfg s) (hs : Forwards s) (h : m.launch cfg s = some (s', start)) :
    Forwards s' := by
  obtain ⟨hcrash, happly⟩ := Launch.launch_eq_some h
  cases m with
  | recv i =>
    obtain ⟨s₁, hrecv, heq⟩ := Option.map_eq_some_iff.mp happly
    obtain ⟨rfl, -⟩ := Prod.mk.inj heq
    obtain ⟨⟨item, ch⟩, hpop, rfl⟩ := Option.map_eq_some_iff.mp hrecv
    refine hs.modifyStream ?_ (hs.ordered i) (fun hp => hs.passed hp i) fun _ h => h
    have hreceived := hs.received i
    rw [(Go.Chan.pop?_eq_some hpop).1] at hreceived
    simpa using hreceived
  | bridge i c choice =>
    exact hs.bridge hinv (panicked_of_crashed hcrash) (Relay.bridgeStep_effect happly)
  | watchClose i | expire i =>
    simp only [Launch.apply] at happly
    split at happly
    · obtain ⟨rfl, -⟩ := Prod.mk.inj (Option.some.inj happly)
      exact hs.same (.modifyStream s rfl rfl rfl rfl)
    · simp at happly
  | cancel i =>
    obtain ⟨rfl, -⟩ := Prod.mk.inj (Option.some.inj happly)
    exact hs.same (.modifyStream s rfl rfl rfl rfl)
  | send _ _ | closeSend _ _ | direct _ _ =>
    obtain ⟨rfl, -⟩ := Prod.mk.inj (Option.some.inj happly)
    exact hs

/-- Every move keeps the streams' queues in order. -/
theorem Forwards.move {m : Move} {t t' : System} (ht : Holds (Op.exec u) (Relay.membership u cfg) t)
    (hs : Forwards t.shared) (h : System.step u cfg t m = some t') : Forwards t'.shared := by
  cases m with
  | run g n =>
    obtain ⟨o, k, s, r, hg, hx, rfl⟩ := step_run h
    have hreq := ht.req Relay.membership_sound hg
    cases o with
    | service o => exact hs.service ht.inv hx
    | stream i o => exact hs.stream ht.inv hreq.2 hx
  | launch m =>
    rcases step_launch h with ⟨s, hl, rfl⟩ | ⟨s, g, p, hl, -, rfl⟩
    · exact hs.launch ht.inv hl
    · exact hs.launch ht.inv hl

theorem Forwards.init (maxPeers : Int) : Forwards (System.init maxPeers).shared :=
  ⟨fun _ => rfl, fun _ _ => List.nil_prefix, fun _ _ _ => rfl, fun _ => rfl⟩

/-- In every run the streams' queues are in order. -/
theorem forwards_run (h : System.run u cfg (System.init maxPeers) moves = some t) :
    Forwards t.shared :=
  (Relay.membership_sound.invariant (I := fun t => Forwards t.shared) (fun hok => hok)
    (fun ht _ hs hmove => hs.move ht hmove) (Relay.membership_init maxPeers) (.init maxPeers)
    Relay.membership_guarded h).2

/-! ### No gaps -/

/-- Filtering and mapping keep a prefix. -/
theorem events_prefix {l l' : List Queued} (g : Goroutine) (h : l <+: l') :
    (queuedBy g l).map (·.event) <+: (queuedBy g l').map (·.event) :=
  (h.filter _).map _

/-- What `Recv` returns of a sender's events for a client is an unbroken prefix of what
the sender's calls sent that client, in order. Once a call has missed a client, no call
that begins after it returned ever gets an event into the client's queue, even when the
queue drains. -/
theorem recv_noGap (h : System.run u cfg (System.init maxPeers) moves = some t) :
    (∀ i c g, (queuedBy g (roomItems c (t.shared.streams i).returned)).map (·.event) <+:
      t.shared.svc.sentTo g c) ∧
    (∀ m ∈ t.shared.svc.missed, ∀ q ∈ (t.shared.svc.clientAt m.client).enqueued,
      q.call < m.begun) := by
  have hforwards := forwards_run h
  obtain ⟨hbase, horder⟩ := (deliveries_holds h).inv
  refine ⟨fun i c g => ?_, fun m hm q hq => horder.later hm q hq⟩
  have hreturned : (t.shared.streams i).returned <+: (t.shared.streams i).queued :=
    hforwards.received i ▸ List.prefix_append _ _
  have htaken : (t.shared.svc.clientAt c).taken <+: (t.shared.svc.clientAt c).enqueued := by
    rw [hbase.queue c]
    exact List.prefix_append _ _
  have hitems : roomItems c (t.shared.streams i).returned <+:
      roomItems c (t.shared.streams i).queued := hreturned.filterMap _
  calc (queuedBy g (roomItems c (t.shared.streams i).returned)).map (·.event)
    _ <+: (queuedBy g (t.shared.svc.clientAt c).enqueued).map (·.event) :=
        events_prefix g (hitems.trans ((hforwards.ordered i c).trans htaken))
    _ <+: t.shared.svc.sentTo g c := horder.queued_isPrefix g c

/-- Two streams join `s1`, and the first gets its `RoomJoined` and the `PeerJoined` of
the second. -/
def joinAndRecv : List Move :=
  List.flatten [
    .launch (.send 0 { action := some (.join { sessionId := "s1" }) }) ::
      List.replicate 19 (.run (.send 0) 0),
    .launch (.send 1 { action := some (.join { sessionId := "s1" }) }) ::
      List.replicate 21 (.run (.send 1) 0),
    [.launch (.bridge 0 "u" .chan), .launch (.bridge 0 "u" .chan), .launch (.recv 0),
      .launch (.recv 0)]]

theorem recv_noGap_joinAndRecv : ∃ t,
    System.run .unary (fun _ => {}) (System.init 10) joinAndRecv = some t ∧
    (roomItems "u" (t.shared.streams 0).returned).length = 1 ∧
    (queuedBy (.send 1) (roomItems "u" (t.shared.streams 0).returned)).map (·.event) <+:
      t.shared.svc.sentTo (.send 1) "u" := by
  have hrun : (System.run .unary (fun _ => {}) (System.init 10) joinAndRecv).any (fun t =>
      (roomItems "u" (t.shared.streams 0).returned).length = 1) = true := by
    decide +kernel
  obtain ⟨t, ht, hlength⟩ := (Option.any_eq_true _ _).mp hrun
  exact ⟨t, ht, of_decide_eq_true hlength, (recv_noGap ht).1 0 "u" (.send 1)⟩

end MassRelay

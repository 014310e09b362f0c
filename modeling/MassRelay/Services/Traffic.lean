import MassRelay.Services.Housed
import MassRelay.Services.Refusals

/-!
# MassRelay.Services.Traffic

What a request puts in the queues, told apart from what it does to the rooms.

`atRest` forgets the traffic of a state: queues, slow flags, the records of what was
delivered, the count of relayed messages. A step that only sends leaves the rest alone
(`TrafficOnly`). What it sends, client by client, is `Delivered` for a single `deliver` and
`Hears` for a whole step: the events that a client who keeps up finds in its queue. Both
need the channel to be open, which it is for whoever is in a room (`ChansOpen`), since only
the end of a session closes channels and it empties the room.
-/

namespace MassRelay

/-- A client without its traffic. -/
def CollabClient.atRest (cl : CollabClient) : CollabClient :=
  { cl with sendCh := .make, slow := false, progress := .added, enqueued := [], taken := [] }

namespace CollabService

variable {u : UuidSource} {s s' s'' : CollabService} {g : Goroutine} {r : RoomRef} {c : String}

/-- The service without its traffic. -/
def atRest (s : CollabService) : CollabService :=
  { s with
    clientAt := fun c => (s.clientAt c).atRest
    metrics := { s.metrics with onMessageRelay := 0 }
    panicked := false
    sent := []
    missed := [] }

/-! ### Steps that only send -/

/-- Apart from ids it took, the step left alone what is not traffic. -/
structure TrafficOnly (s s' : CollabService) : Prop where
  atRest : s'.atRest = { s.atRest with nextUuid := s'.nextUuid }
  nextUuid : s.nextUuid ≤ s'.nextUuid

namespace TrafficOnly

theorem refl (s : CollabService) : TrafficOnly s s := ⟨rfl, le_rfl⟩

theorem trans (h : TrafficOnly s s') (h' : TrafficOnly s' s'') : TrafficOnly s s'' := by
  refine ⟨?_, h.nextUuid.trans h'.nextUuid⟩
  rw [h'.atRest, h.atRest]

/-- Neither the rooms nor the ids change. -/
theorem of_atRest (h : s'.atRest = s.atRest) : TrafficOnly s s' := by
  have hnext : s'.atRest.nextUuid = s.atRest.nextUuid := congrArg CollabService.nextUuid h
  change s'.nextUuid = s.nextUuid at hnext
  refine ⟨?_, hnext.ge⟩
  rw [h, hnext]
  rfl

theorem tick (s : CollabService) : TrafficOnly s s.tick := ⟨rfl, Nat.le_succ _⟩

/-- Whatever is read off a state that does not see traffic or ids. -/
theorem field {α : Type} (h : TrafficOnly s s') (f : CollabService → α) :
    f s'.atRest = f { s.atRest with nextUuid := s'.nextUuid } :=
  congrArg f h.atRest

theorem roomAt (h : TrafficOnly s s') : s'.roomAt = s.roomAt :=
  h.field CollabService.roomAt

theorem rooms (h : TrafficOnly s s') : s'.rooms = s.rooms :=
  h.field CollabService.rooms

theorem nextRoom (h : TrafficOnly s s') : s'.nextRoom = s.nextRoom :=
  h.field CollabService.nextRoom

theorem getRoomByID (h : TrafficOnly s s') (sid : String) :
    s'.getRoomByID sid = s.getRoomByID sid := by
  rw [CollabService.getRoomByID, h.rooms]
  rfl

theorem client (h : TrafficOnly s s') (c : String) :
    (s'.clientAt c).atRest = (s.clientAt c).atRest :=
  h.field (CollabService.clientAt · c)

theorem info (h : TrafficOnly s s') (c : String) : (s'.clientAt c).info = (s.clientAt c).info :=
  show (s'.clientAt c).atRest.info = (s.clientAt c).atRest.info from
    congrArg CollabClient.info (h.client c)

theorem metrics (h : TrafficOnly s s') :
    { s'.metrics with onMessageRelay := 0 } = { s.metrics with onMessageRelay := 0 } :=
  h.field CollabService.metrics

theorem sameRooms (h : TrafficOnly s s') : SameRooms s s' where
  rooms := h.rooms
  nextRoom := h.nextRoom
  nextUuid := h.nextUuid
  sessionId r := by rw [h.roomAt]
  clients r := by rw [h.roomAt]
  ownerClientId r := by rw [h.roomAt]
  ownerBrowserId r := by rw [h.roomAt]
  info := h.info
  session c := show (s'.clientAt c).atRest.sessionId = (s.clientAt c).atRest.sessionId from
    congrArg CollabClient.sessionId (h.client c)
  browserId c := show (s'.clientAt c).atRest.browserId = (s.clientAt c).atRest.browserId from
    congrArg CollabClient.browserId (h.client c)

end TrafficOnly

theorem modifyClient_atRest {f : CollabClient → CollabClient}
    (hf : (f (s.clientAt c)).atRest = (s.clientAt c).atRest) :
    (s.modifyClient c f).atRest = s.atRest := by
  have hclient : ∀ c', ((s.modifyClient c f).clientAt c').atRest = (s.clientAt c').atRest := by
    intro c'
    by_cases hc : c' = c
    · subst hc
      simpa using hf
    · rw [modifyClient_clientAt_of_ne s f hc]
  unfold atRest
  rw [funext hclient]
  rfl

theorem beginDeliver_atRest (s : CollabService) (g : Goroutine) (c : String) (e : CollabEvent) :
    (s.beginDeliver g c e).1.atRest = s.atRest := by
  unfold beginDeliver
  dsimp only
  split <;> rfl

theorem put?_atRest {e : CollabEvent} {k : Nat} (h : s.put? g c e k = some s') :
    s'.atRest = s.atRest := by
  rcases put?_eq_some h with ⟨-, rfl⟩ | ⟨ch, -, rfl⟩
  · rfl
  · exact modifyClient_atRest rfl

theorem markSlow_atRest (s : CollabService) (c : String) (k : Nat) :
    (s.markSlow c k).atRest = s.atRest :=
  modifyClient_atRest (s := s) (c := c) (f := fun cl => { cl with slow := true }) rfl

theorem deliver_atRest (g : Goroutine) (s : CollabService) (c : String) (e : CollabEvent) :
    (s.deliver g c e).atRest = s.atRest := by
  refine deliver_rule (I := fun s' => s'.atRest = s.atRest) (beginDeliver_atRest s g c e) ?_ ?_
  · exact fun hput h => (put?_atRest hput).trans h
  · exact fun {s₁ k} h => (markSlow_atRest s₁ c k).trans h

theorem deliverAll_atRest (g : Goroutine) (s : CollabService)
    (targets : List (String × CollabEvent)) : (s.deliverAll g targets).atRest = s.atRest :=
  deliverAll_rule (I := fun s' => s'.atRest = s.atRest) (fun h => (deliver_atRest ..).trans h) rfl

theorem closeClients_atRest (s : CollabService) (cs : List String) :
    (cs.foldl closeClient s).atRest = s.atRest := by
  refine closeClients_rule (I := fun s' => s'.atRest = s.atRest) (fun h => h) ?_ rfl
  exact fun c h => (modifyClient_atRest rfl).trans h

theorem receive_atRest (s : CollabService) (c : String) : (s.receive c).atRest = s.atRest := by
  unfold receive
  split
  · rfl
  · rename_i q s' h
    obtain ⟨ch, -, rfl⟩ := take?_eq_some h
    exact modifyClient_atRest rfl

theorem noteProgress_atRest (s : CollabService) (c : String) (progress : JoinProgress) :
    (s.noteProgress c progress).atRest = s.atRest :=
  modifyClient_atRest rfl

/-- A step that only sends, and closes no channel. -/
structure SendsOnly (s s' : CollabService) : Prop extends TrafficOnly s s' where
  closed : ∀ c, (s'.clientAt c).sendCh.closed = (s.clientAt c).sendCh.closed

namespace SendsOnly

theorem refl (s : CollabService) : SendsOnly s s := ⟨.refl s, fun _ => rfl⟩

theorem trans (h : SendsOnly s s') (h' : SendsOnly s' s'') : SendsOnly s s'' :=
  ⟨h.toTrafficOnly.trans h'.toTrafficOnly, fun c => (h'.closed c).trans (h.closed c)⟩

theorem tick (s : CollabService) : SendsOnly s s.tick := ⟨.tick s, fun _ => rfl⟩

theorem countRelay (s : CollabService) : SendsOnly s s.countRelay :=
  ⟨.of_atRest rfl, fun _ => rfl⟩

/-- An update of a client's traffic that leaves its channel open or closed. -/
theorem modifyClient {f : CollabClient → CollabClient}
    (hrest : (f (s.clientAt c)).atRest = (s.clientAt c).atRest)
    (hclosed : (f (s.clientAt c)).sendCh.closed = (s.clientAt c).sendCh.closed) :
    SendsOnly s (s.modifyClient c f) := by
  refine ⟨.of_atRest (modifyClient_atRest hrest), fun c' => ?_⟩
  by_cases hc : c' = c
  · subst hc
    simpa using hclosed
  · rw [modifyClient_clientAt_of_ne s f hc]

theorem noteProgress (s : CollabService) (c : String) (progress : JoinProgress) :
    SendsOnly s (s.noteProgress c progress) := modifyClient rfl rfl

theorem deliver (g : Goroutine) (s : CollabService) (c : String) (e : CollabEvent) :
    SendsOnly s (s.deliver g c e) := by
  refine ⟨.of_atRest (deliver_atRest g s c e), ?_⟩
  have hbegin : ∀ c', ((s.beginDeliver g c e).1.clientAt c').sendCh.closed =
      (s.clientAt c').sendCh.closed := by
    intro c'
    unfold beginDeliver
    dsimp only
    split <;> rfl
  refine deliver_rule (I := fun s' => ∀ c', (s'.clientAt c').sendCh.closed =
    (s.clientAt c').sendCh.closed) hbegin ?_ ?_
  · intro s₁ s₂ k hput h c'
    rcases put?_eq_some hput with ⟨-, rfl⟩ | ⟨ch, hpush, rfl⟩
    · exact h c'
    · have hput : SendsOnly s₁ (s₁.modifyClient c fun cl =>
          { cl with sendCh := ch, enqueued := cl.enqueued ++ [⟨e, g, k⟩] }) :=
        modifyClient rfl (Go.Chan.push?_eq_some hpush).2
      exact (hput.closed c').trans (h c')
  · intro s₁ k h c'
    exact ((modifyClient (s := s₁) (c := c) (f := fun cl => { cl with slow := true })
      rfl rfl).closed c').trans (h c')

theorem deliverAll (g : Goroutine) (s : CollabService) (targets : List (String × CollabEvent)) :
    SendsOnly s (s.deliverAll g targets) :=
  deliverAll_rule (I := SendsOnly s) (fun {s₁ c e} h => h.trans (deliver g s₁ c e)) (.refl s)

theorem receive (s : CollabService) (c : String) : SendsOnly s (s.receive c) := by
  unfold CollabService.receive
  split
  · exact .refl s
  · rename_i q s' h
    obtain ⟨ch, hpop, rfl⟩ := take?_eq_some h
    exact modifyClient rfl (Go.Chan.pop?_eq_some hpop).2

end SendsOnly

/-! ### What a client finds in its queue -/

/-- What a `deliver` call does to a client whose channel is open. -/
inductive Delivered (cl cl' : CollabClient) (e : CollabEvent) : Prop
  | skipped (hslow : cl.slow = true) (h : cl' = cl)
  | queued (q : Queued) (ch : Go.Chan Queued 64) (hslow : cl.slow = false)
      (hfree : cl.sendCh.buf.length < 64) (hevent : q.event = e)
      (hbuf : ch.buf = cl.sendCh.buf ++ [q])
      (h : cl' = { cl with sendCh := ch, enqueued := cl.enqueued ++ [q] })
  | overflowed (hslow : cl.slow = false) (hfull : cl.sendCh.buf.length = 64)
      (h : cl' = { cl with slow := true })

theorem deliver_client {e : CollabEvent} (g : Goroutine)
    (hopen : (s.clientAt c).sendCh.closed = false) :
    Delivered (s.clientAt c) ((s.deliver g c e).clientAt c) e := by
  unfold deliver beginDeliver
  cases hslow : (s.clientAt c).slow with
  | true => exact .skipped hslow (by simp)
  | false =>
    simp only [Bool.false_eq_true, if_false, put?, hopen]
    cases hpush : (s.clientAt c).sendCh.push? ⟨e, g, s.sent.length⟩ with
    | some ch =>
      refine .queued ⟨e, g, s.sent.length⟩ ch hslow ?_ rfl (Go.Chan.push?_eq_some hpush).1 ?_
      · by_contra hfull
        simp [Go.Chan.push?, hfull] at hpush
      · simp [CollabService.modifyClient]
    | none =>
      refine .overflowed hslow (le_antisymm (s.clientAt c).sendCh.bound ?_) ?_
      · by_contra hfree
        simp [Go.Chan.push?, Nat.lt_of_not_le hfree] at hpush
      · simp [markSlow, CollabService.modifyClient]

theorem deliver_client_of_ne {c' : String} (g : Goroutine) (s : CollabService) (e : CollabEvent)
    (h : c' ≠ c) : (s.deliver g c e).clientAt c' = s.clientAt c' := by
  have hbegin : (s.beginDeliver g c e).1.clientAt = s.clientAt := by
    unfold beginDeliver
    dsimp only
    split <;> rfl
  refine deliver_rule (I := fun s' => s'.clientAt c' = s.clientAt c') (congrFun hbegin c') ?_ ?_
  · intro s₁ s₂ k hput hs
    rcases put?_eq_some hput with ⟨-, rfl⟩ | ⟨ch, -, rfl⟩
    · exact hs
    · exact (modifyClient_clientAt_of_ne s₁ _ h).trans hs
  · intro s₁ k hs
    exact (modifyClient_clientAt_of_ne s₁ (fun cl => { cl with slow := true }) h).trans hs

theorem deliverAll_client_of_notMem {targets : List (String × CollabEvent)} (g : Goroutine)
    (s : CollabService) (h : c ∉ targets.map Prod.fst) :
    (s.deliverAll g targets).clientAt c = s.clientAt c := by
  unfold deliverAll
  induction targets generalizing s with
  | nil => rfl
  | cons t targets ih =>
    simp only [List.map_cons, List.mem_cons, not_or] at h
    rw [List.foldl_cons, ih _ h.2, deliver_client_of_ne g s t.2 h.1]

/-- Each target of a round of deliveries gets its event, once. -/
theorem deliverAll_client {targets : List (String × CollabEvent)} {e : CollabEvent}
    (g : Goroutine) (hnodup : (targets.map Prod.fst).Nodup) (hmem : (c, e) ∈ targets)
    (hopen : (s.clientAt c).sendCh.closed = false) :
    Delivered (s.clientAt c) ((s.deliverAll g targets).clientAt c) e := by
  unfold deliverAll
  induction targets generalizing s with
  | nil => simp at hmem
  | cons t targets ih =>
    simp only [List.map_cons, List.nodup_cons] at hnodup
    rw [List.foldl_cons]
    rcases List.mem_cons.mp hmem with rfl | hmem
    · rw [show List.foldl _ _ targets = (s.deliver g c e).deliverAll g targets from rfl,
        deliverAll_client_of_notMem g _ hnodup.1]
      exact deliver_client g hopen
    · have hne : c ≠ t.1 := by
        rintro rfl
        exact hnodup.1 (List.mem_map.mpr ⟨(t.1, e), hmem, rfl⟩)
      have hsame := deliver_client_of_ne g s t.2 hne
      have hrest := ih (s := s.deliver g t.1 t.2) hnodup.2 hmem (by rw [hsame]; exact hopen)
      rwa [hsame] at hrest

/-- The events that were put in the queue of client `c`. -/
def heard (s : CollabService) (c : String) : List Event :=
  (s.clientAt c).enqueued.map (·.event.event)

/-- A client that keeps up throughout the step finds these events in its queue, and there
was room for the first of them; and a client whose queue has room for all of them does keep
up. -/
structure Hears (s s' : CollabService) (c : String) (es : List Event) : Prop where
  kept : (s'.clientAt c).slow = false →
    (s.clientAt c).slow = false ∧ s'.heard c = s.heard c ++ es ∧
      (es ≠ [] → (s.clientAt c).sendCh.buf.length < 64)
  keeps : (s.clientAt c).slow = false → (s.clientAt c).sendCh.buf.length + es.length ≤ 64 →
    (s'.clientAt c).slow = false ∧
      (s'.clientAt c).sendCh.buf.length ≤ (s.clientAt c).sendCh.buf.length + es.length

/-- The step does not come near the client's queue. -/
structure SameQueue (s s' : CollabService) (c : String) : Prop where
  slow : (s'.clientAt c).slow = (s.clientAt c).slow
  buf : (s'.clientAt c).sendCh.buf = (s.clientAt c).sendCh.buf
  enqueued : (s'.clientAt c).enqueued = (s.clientAt c).enqueued

theorem SameQueue.of_client (h : s'.clientAt c = s.clientAt c) : SameQueue s s' c :=
  ⟨by rw [h], by rw [h], by rw [h]⟩

theorem SameQueue.trans (h : SameQueue s s' c) (h' : SameQueue s' s'' c) : SameQueue s s'' c :=
  ⟨h'.slow.trans h.slow, h'.buf.trans h.buf, h'.enqueued.trans h.enqueued⟩

/-- An update of a client that does not come near its queue. -/
theorem SameQueue.modifyClient {f : CollabClient → CollabClient} {c' : String}
    (hslow : (f (s.clientAt c)).slow = (s.clientAt c).slow)
    (hbuf : (f (s.clientAt c)).sendCh.buf = (s.clientAt c).sendCh.buf)
    (hqueue : (f (s.clientAt c)).enqueued = (s.clientAt c).enqueued) :
    SameQueue s (s.modifyClient c f) c' := by
  by_cases hc : c' = c
  · subst hc
    constructor <;> rw [modifyClient_clientAt_self]
    exacts [hslow, hbuf, hqueue]
  · exact .of_client (modifyClient_clientAt_of_ne s f hc)

theorem SameQueue.tick (s : CollabService) (c : String) : SameQueue s s.tick c := .of_client rfl

theorem SameQueue.noteProgress (s : CollabService) (c c' : String) (progress : JoinProgress) :
    SameQueue s (s.noteProgress c progress) c' := .modifyClient rfl rfl rfl

theorem SameQueue.closeClients (s : CollabService) (cs : List String) (c' : String) :
    SameQueue s (cs.foldl closeClient s) c' := by
  refine closeClients_rule (I := fun s' => SameQueue s s' c') ?_ ?_ (.of_client rfl)
  · exact fun h => h.trans (.of_client rfl)
  · exact fun c h => h.trans (.modifyClient rfl rfl rfl)

theorem SameQueue.hears (h : SameQueue s s' c) : Hears s s' c [] where
  kept hslow := by
    rw [h.slow] at hslow
    exact ⟨hslow, by rw [heard, heard, h.enqueued, List.append_nil], fun h => absurd rfl h⟩
  keeps hslow _ := ⟨h.slow.trans hslow, by rw [h.buf]; exact Nat.le_add_right _ _⟩

theorem Hears.after {es : List Event} (h : SameQueue s s' c) (h' : Hears s' s'' c es) :
    Hears s s'' c es where
  kept hslow := by
    obtain ⟨hslow', hnew, hfree⟩ := h'.kept hslow
    refine ⟨h.slow ▸ hslow', ?_, fun hes => h.buf ▸ hfree hes⟩
    rw [hnew, heard, heard, h.enqueued]
  keeps hslow hroom := by
    rw [← h.buf] at hroom ⊢
    exact h'.keeps (h.slow.trans hslow) hroom

/-- After a step that it hears something of, a client hears on. -/
theorem Hears.trans {e : Event} {es es' : List Event} (h : Hears s s' c (e :: es))
    (h' : Hears s' s'' c es') : Hears s s'' c (e :: es ++ es') where
  kept hslow := by
    obtain ⟨hslow', hnew', -⟩ := h'.kept hslow
    obtain ⟨hslow, hnew, hfree⟩ := h.kept hslow'
    exact ⟨hslow, by rw [hnew', hnew, List.append_assoc], fun _ => hfree (List.cons_ne_nil _ _)⟩
  keeps hslow hroom := by
    rw [List.length_append] at hroom ⊢
    obtain ⟨hslow', hbuf⟩ := h.keeps hslow (by omega)
    obtain ⟨hslow'', hbuf'⟩ := h'.keeps hslow' (by omega)
    exact ⟨hslow'', by omega⟩

/-- A step after which nothing more is heard. -/
theorem Hears.still {es : List Event} (h : Hears s s' c es) (h' : Hears s' s'' c []) :
    Hears s s'' c es where
  kept hslow := by
    obtain ⟨hslow', hnew', -⟩ := h'.kept hslow
    obtain ⟨hslow, hnew, hfree⟩ := h.kept hslow'
    exact ⟨hslow, by rw [hnew', hnew, List.append_nil], hfree⟩
  keeps hslow hroom := by
    obtain ⟨hslow', hbuf⟩ := h.keeps hslow hroom
    obtain ⟨hslow'', hbuf'⟩ := h'.keeps hslow' (by simp only [List.length_nil]; omega)
    exact ⟨hslow'', by simp only [List.length_nil] at hbuf'; omega⟩

theorem Delivered.hears {e : CollabEvent} (h : Delivered (s.clientAt c) (s'.clientAt c) e) :
    Hears s s' c [e.event] := by
  cases h with
  | skipped hs h =>
    refine ⟨fun hslow => ?_, fun hslow => ?_⟩
    · simp [h, hs] at hslow
    · simp [hs] at hslow
  | queued q ch hs hfree hevent hbuf h =>
    refine ⟨fun _ => ⟨hs, by rw [heard, h, heard]; simp [hevent], fun _ => hfree⟩, fun _ _ => ?_⟩
    rw [h]
    exact ⟨hs, by simp [hbuf]⟩
  | overflowed _ hfull h =>
    refine ⟨fun hslow => ?_, fun _ hroom => ?_⟩
    · simp [h] at hslow
    · simp [hfull] at hroom

theorem receive_hears (s : CollabService) (c c' : String) : Hears s (s.receive c) c' [] := by
  unfold receive
  split
  · exact (SameQueue.of_client rfl).hears
  · rename_i q s' h
    obtain ⟨ch, hpop, rfl⟩ := take?_eq_some h
    by_cases hc : c' = c
    · subst hc
      have hbuf := (Go.Chan.pop?_eq_some hpop).1
      refine ⟨fun hslow => ?_, fun hslow _ => ?_⟩
      · rw [modifyClient_clientAt_self] at hslow
        exact ⟨hslow, by simp [heard], fun h => absurd rfl h⟩
      · rw [modifyClient_clientAt_self]
        exact ⟨hslow, by rw [hbuf]; simp⟩
    · exact (SameQueue.of_client (modifyClient_clientAt_of_ne s _ hc)).hears

/-- A client that is sent one event at most keeps up if it has room for it. -/
theorem Hears.slow_iff {es : List Event} (h : Hears s s' c es) (hlen : es.length ≤ 1) :
    (s'.clientAt c).slow = false ↔ (s.clientAt c).slow = false ∧
      (es ≠ [] → (s.clientAt c).sendCh.buf.length < 64) := by
  refine ⟨fun hslow => ⟨(h.kept hslow).1, (h.kept hslow).2.2⟩, ?_⟩
  rintro ⟨hslow, hfree⟩
  have hbound := (s.clientAt c).sendCh.bound
  refine (h.keeps hslow ?_).1
  cases es with
  | nil => exact hbound
  | cons e es =>
    have hfree := hfree (List.cons_ne_nil e es)
    omega

/-- A round of deliveries, one to each id. -/
theorem deliverAll_hears {ids : List String} (g : Goroutine) (build : String → CollabEvent)
    (hnodup : ids.Nodup) (hopen : ∀ c ∈ ids, (s.clientAt c).sendCh.closed = false) (c : String) :
    Hears s (s.deliverAll g (ids.map fun id => (id, build id))) c
      (if c ∈ ids then [(build c).event] else []) := by
  have hids : (ids.map fun id => (id, build id)).map Prod.fst = ids := by
    simp [Function.comp_def]
  split
  · rename_i hc
    have hmem : (c, build c) ∈ ids.map fun id => (id, build id) :=
      List.mem_map_of_mem (f := fun id => (id, build id)) hc
    exact (deliverAll_client g (by rw [hids]; exact hnodup) hmem (hopen c hc)).hears
  · rename_i hc
    exact (SameQueue.of_client (deliverAll_client_of_notMem g s (by rw [hids]; exact hc))).hears

/-! ### Broadcasts -/

/-- Whoever is in a room has an open channel. -/
def ChansOpen (s : CollabService) : Prop :=
  ∀ r c, c ∈ (s.roomAt r).clients → (s.clientAt c).sendCh.closed = false

theorem ChansOpen.sendsOnly (hs : ChansOpen s) (h : SendsOnly s s') : ChansOpen s' := by
  intro r c hc
  rw [h.roomAt] at hc
  rw [h.closed]
  exact hs r c hc

theorem broadcastToAll_roomAt (g : Goroutine) (s : CollabService) (r : RoomRef)
    (e : CollabEvent) : (s.broadcastToAll g r e).roomAt = s.roomAt :=
  (SendsOnly.deliverAll g s _).roomAt

theorem broadcastToAll_hears (g : Goroutine) (hwf : RoomsWF u s) (hopen : ChansOpen s)
    (r : RoomRef) (e : CollabEvent) (c : String) :
    Hears s (s.broadcastToAll g r e) c (if c ∈ (s.roomAt r).clients then [e.event] else []) :=
  deliverAll_hears g (fun _ => e) (hwf.nodup r) (hopen r) c

theorem RoomsWF.mem_exceptTargets (hwf : RoomsWF u s) {x : String} :
    c ∈ s.exceptTargets r x ↔ c ∈ (s.roomAt r).clients ∧ c ≠ x := by
  simp only [exceptTargets, List.mem_filter, decide_eq_true_eq]
  refine and_congr_right fun hc => ?_
  rw [(hwf.member hc).1]

theorem broadcastExcept_client {e : CollabEvent} {x : String} (g : Goroutine) (hwf : RoomsWF u s)
    (hopen : ChansOpen s) (hc : c ∈ (s.roomAt r).clients) (hx : c ≠ x) :
    Delivered (s.clientAt c) ((s.broadcastExcept g r e x).clientAt c) e := by
  have hnodup : (s.exceptTargets r x).Nodup := (hwf.nodup r).filter _
  refine deliverAll_client g ?_ (List.mem_map_of_mem (hwf.mem_exceptTargets.mpr ⟨hc, hx⟩))
    (hopen r c hc)
  rw [List.map_map]
  simpa [Function.comp_def] using hnodup

theorem broadcastExcept_hears (g : Goroutine) (hwf : RoomsWF u s) (hopen : ChansOpen s)
    (r : RoomRef) (e : CollabEvent) (x c : String) :
    Hears s (s.broadcastExcept g r e x) c
      (if c ∈ (s.roomAt r).clients ∧ c ≠ x then [e.event] else []) := by
  have hnodup : (s.exceptTargets r x).Nodup := (hwf.nodup r).filter _
  have hhears := deliverAll_hears (s := s) g (fun _ => e) hnodup
    (fun c hc => hopen r c (hwf.mem_exceptTargets.mp hc).1) c
  simp only [hwf.mem_exceptTargets] at hhears
  exact hhears

theorem broadcastExcept_client_of_not {x : String} (g : Goroutine) (hwf : RoomsWF u s)
    (e : CollabEvent) (hc : ¬ (c ∈ (s.roomAt r).clients ∧ c ≠ x)) :
    (s.broadcastExcept g r e x).clientAt c = s.clientAt c := by
  refine deliverAll_client_of_notMem g s ?_
  rw [List.map_map]
  simpa [Function.comp_def] using fun h => hc (hwf.mem_exceptTargets.mp h)

/-! ### The handlers -/

theorem handlePresence_sendsOnly (p : PresenceUpdate) :
    SendsOnly s (s.handlePresence u g c p).1 := by
  unfold handlePresence
  split
  · exact .refl s
  · exact (SendsOnly.tick s).trans (.deliverAll g _ _)

theorem deliverAppMessage_sendsOnly (sid : String) (msg : AppMessage) :
    SendsOnly s (s.deliverAppMessage u g sid c msg).1 := by
  unfold deliverAppMessage
  split
  · exact .refl s
  · dsimp only
    split
    · exact ((SendsOnly.tick s).trans (.deliverAll g _ _)).trans (.countRelay _)
    · exact ((SendsOnly.tick s).trans (.deliverAll g _ _)).trans (.countRelay _)

/-- Noting an action and taking an id commute. -/
theorem noteRelayed_tick (s : CollabService) (r : RoomRef) (action : Action) :
    s.tick.noteRelayed r action = (s.noteRelayed r action).tick := by
  unfold noteRelayed
  split
  · split <;> rfl
  · rfl
  · rfl

/-- What is not traffic in a broadcast is the room state its action changes. -/
theorem handleBroadcast_sendsOnly {action : Action} (hfind : s.findRoomForClient c = some r) :
    SendsOnly (s.noteRelayed r action) (s.handleBroadcast u g c action).1 := by
  unfold handleBroadcast
  rw [hfind]
  dsimp only
  rw [noteRelayed_tick]
  have htick := SendsOnly.tick (s.noteRelayed r action)
  split
  · rename_i hnone
    cases action with
    | join _ | leave _ | presence _ => exact .tick s
    | _ => simp [relayed] at hnone
  · split
    · exact (htick.trans (.deliverAll g _ _)).trans (.countRelay _)
    · split
      · exact (htick.trans (.deliverAll g _ _)).trans (.countRelay _)
      · exact ((htick.trans (.deliverAll g _ _)).trans (.countRelay _)).trans (.tick _)

theorem handleBroadcast_none {action : Action} (hfind : s.findRoomForClient c = none) :
    s.handleBroadcast u g c action = (s, .err (notFoundMessage c)) := by
  unfold handleBroadcast
  rw [hfind]

section Join

variable {ctx : Ctx} {join : JoinRoom} {sid : String}

/-- The rest of an accepted join only sends. -/
theorem accept_sendsOnly :
    SendsOnly (s.enrolled u g ctx join sid r) (s.accept u g ctx join sid r).1 :=
  (((SendsOnly.tick _).trans (.noteProgress _ _ _)).trans (.deliverAll g _ _)).trans
    ((SendsOnly.tick _).trans (.noteProgress _ _ _))

/-- The room after the checks of a join: an owner whom the first two let through has
declared it encrypted, if it does so. -/
def checked (s : CollabService) (join : JoinRoom) (r : RoomRef) : CollabService :=
  if s.isFull r || (join.isOwner && s.ownedElsewhere r join.browserId) then s
  else s.declareEncrypted r join

theorem enterRoom_refused_eq (h : s.refuses join r = true) :
    (s.enterRoom u g ctx join sid r).1 = s.checked join r ∨
      (s.enterRoom u g ctx join sid r).1 = (s.checked join r).tick := by
  unfold enterRoom checked
  cases hfull : s.isFull r with
  | true =>
    simp only [Bool.true_or, if_true]
    exact Or.inr trivial
  | false =>
    cases howned : join.isOwner && s.ownedElsewhere r join.browserId with
    | true =>
      simp only [Bool.or_true, Bool.false_eq_true, if_true, if_false]
      exact Or.inl trivial
    | false =>
      have hold : (((s.declareEncrypted r join).roomAt r).encrypted &&
          decide (join.protocolVersion < 2)) = true := by
        rwa [refuses, hfull, howned, Bool.false_or, Bool.false_or] at h
      simp only [Bool.or_false, Bool.false_eq_true, if_false, hold, if_true]
      exact Or.inr trivial

theorem enterRoom_refused_sendsOnly (h : s.refuses join r = true) :
    SendsOnly (s.checked join r) (s.enterRoom u g ctx join sid r).1 := by
  rcases enterRoom_refused_eq h with heq | heq
  · rw [heq]
    exact .refl _
  · rw [heq]
    exact .tick _

theorem declareEncrypted_clientAt (s : CollabService) (r : RoomRef) (join : JoinRoom) :
    (s.declareEncrypted r join).clientAt = s.clientAt := by
  unfold declareEncrypted
  split <;> rfl

theorem checked_clientAt (s : CollabService) (r : RoomRef) (join : JoinRoom) :
    (s.checked join r).clientAt = s.clientAt := by
  unfold checked
  split
  · rfl
  · exact declareEncrypted_clientAt s r join

theorem SameRooms.checked (s : CollabService) (r : RoomRef) (join : JoinRoom) :
    SameRooms s (s.checked join r) := by
  unfold CollabService.checked
  split
  · exact .refl s
  · exact .declareEncrypted s r join

theorem atLookup_clientAt (s : CollabService) (join : JoinRoom) :
    (s.atLookup u join).clientAt = s.clientAt := by
  obtain ⟨hints, n, h⟩ := atLookup_eq u join s
  rw [h]

theorem atLookup_roomAt (s : CollabService) (join : JoinRoom) :
    (s.atLookup u join).roomAt = s.roomAt := by
  obtain ⟨hints, n, h⟩ := atLookup_eq u join s
  rw [h]

/-- What the answer of an accepted join tells the new client. -/
def welcome (u : UuidSource) (s : CollabService) (join : JoinRoom) (sid : String) (r : RoomRef) :
    RoomJoined where
  clientId := s.uuid u
  room :=
    { sessionId := sid
      peers := s.getPeerInfo r
      ownerClientId := if join.isOwner then s.uuid u else (s.roomAt r).ownerClientId
      metadata := if (s.roomAt r).metadata = none then join.metadata else (s.roomAt r).metadata
      encrypted := (s.roomAt r).encrypted
      title := if (s.roomAt r).title = "" then join.title else (s.roomAt r).title }
  maxPeers := s.maxPeersPerRoom
  protocolVersion := s.protocolVersion

theorem accept_answer (u : UuidSource) (g : Goroutine) (ctx : Ctx) (join : JoinRoom)
    (sid : String) (r : RoomRef) (s : CollabService) :
    ∃ e, (s.accept u g ctx join sid r).2 = .event e ∧
      e.event = .roomJoined (s.welcome u join sid r) := by
  refine ⟨_, rfl, ?_⟩
  generalize hann : ((s.enrolled u g ctx join sid r).tick.noteProgress (s.uuid u)
    .announced) = s₁
  have hsend : SendsOnly (s.enrolled u g ctx join sid r) s₁ :=
    hann ▸ (SendsOnly.tick _).trans (.noteProgress _ _ _)
  generalize hbro : s₁.broadcastExcept g r ((s.enrolled u g ctx join sid r).peerJoinedEvent
    ((s.enrolled u g ctx join sid r).uuid u) (s.uuid u)) (s.uuid u) = s₂
  have hsend : SendsOnly (s.enrolled u g ctx join sid r) s₂ :=
    hsend.trans (hbro ▸ .deliverAll g s₁ _)
  have hroom := congrFun hsend.roomAt r
  have hmax : s₂.maxPeersPerRoom = s.maxPeersPerRoom := hsend.field CollabService.maxPeersPerRoom
  have hproto : s₂.protocolVersion = s.protocolVersion :=
    hsend.field CollabService.protocolVersion
  have hanswer : (s₂.roomJoinedEvent (s₂.uuid u) r sid (s.uuid u) (s.roomAt r).encrypted
      (s.getPeerInfo r)).event = .roomJoined (s.welcome u join sid r) := by
    simp only [roomJoinedEvent, hroom, hmax, hproto, enrolled_roomAt_self, welcome]
  rw [← hanswer, ← hbro, ← hann]
  rfl

/-- The state in which a join enters a room that it created. -/
def atCreated (u : UuidSource) (s : CollabService) (join : JoinRoom) : CollabService :=
  ((s.atLookup u join).getOrCreateRoom (s.joinTarget u join)).2

/-- What a join does: it stops before it has a room, enters one that was there, or enters
one that it creates. -/
inductive JoinCase (u : UuidSource) (g : Goroutine) (ctx : Ctx) (join : JoinRoom)
    (s : CollabService) : CollabService × Answer → Prop
  | forbidden (e : CollabEvent) (hallows : allowsRoom ctx join.sessionId = false)
      (he : (Answer.event e).refuses = true) : JoinCase u g ctx join s (s.tick, .event e)
  | lost (e : CollabEvent) (hr : s.getRoomByID (s.joinTarget u join) = none)
      (hmust : join.mustExist = true) (he : (Answer.event e).refuses = true) :
      JoinCase u g ctx join s ((s.atLookup u join).tick, .event e)
  | turnedAway (r : RoomRef) (hallows : allowsRoom ctx join.sessionId = true)
      (hr : s.getRoomByID (s.joinTarget u join) = some r) (hrefuse : s.refuses join r = true) :
      JoinCase u g ctx join s
        ((s.atLookup u join).enterRoom u g ctx join (s.joinTarget u join) r)
  | joined (r : RoomRef) (hallows : allowsRoom ctx join.sessionId = true)
      (hr : s.getRoomByID (s.joinTarget u join) = some r) (haccept : s.refuses join r = false) :
      JoinCase u g ctx join s (((s.atLookup u join).declareEncrypted r join).accept u g ctx join
        (s.joinTarget u join) r)
  | createdRefused (hallows : allowsRoom ctx join.sessionId = true)
      (hr : s.getRoomByID (s.joinTarget u join) = none) (hmust : join.mustExist = false)
      (hrefuse : (s.atCreated u join).refuses join s.nextRoom = true) :
      JoinCase u g ctx join s
        ((s.atCreated u join).enterRoom u g ctx join (s.joinTarget u join) s.nextRoom)
  | created (hallows : allowsRoom ctx join.sessionId = true)
      (hr : s.getRoomByID (s.joinTarget u join) = none) (hmust : join.mustExist = false)
      (haccept : (s.atCreated u join).refuses join s.nextRoom = false) :
      JoinCase u g ctx join s (((s.atCreated u join).declareEncrypted s.nextRoom join).accept u g
        ctx join (s.joinTarget u join) s.nextRoom)

/-- The room a join creates, and what else is as before. -/
theorem atCreated_eq (hr : s.getRoomByID (s.joinTarget u join) = none) :
    ((s.atLookup u join).getOrCreateRoom (s.joinTarget u join)).1 = s.nextRoom ∧
    (∀ sid', (s.atCreated u join).getRoomByID sid' =
      if sid' = s.joinTarget u join then some s.nextRoom else s.getRoomByID sid') ∧
    (s.atCreated u join).roomAt =
      Function.update s.roomAt s.nextRoom { sessionId := s.joinTarget u join } ∧
    (s.atCreated u join).clientAt = s.clientAt := by
  have hlook := SameRooms.atLookup (u := u) s join
  rcases getOrCreateRoom_cases (s.atLookup u join) (s.joinTarget u join) with
    ⟨r, hr', -⟩ | ⟨-, hfst, hreg, hroom, hclient, -⟩
  · rw [hlook.getRoomByID, hr] at hr'
    exact absurd hr' (by simp)
  · refine ⟨hfst.trans hlook.nextRoom, fun sid' => ?_, ?_, hclient.trans (atLookup_clientAt s join)⟩
    · rw [atCreated, hreg, hlook.nextRoom, hlook.getRoomByID]
    · rw [atCreated, hroom, hlook.nextRoom, atLookup_roomAt]

theorem atCreated_nextUuid (s : CollabService) (join : JoinRoom) :
    s.nextUuid ≤ (s.atCreated u join).nextUuid := by
  refine (SameRooms.atLookup (u := u) s join).nextUuid.trans_eq ?_
  unfold atCreated getOrCreateRoom
  split <;> rfl

theorem RoomInv.atCreated (hs : RoomInv u s) (join : JoinRoom) : RoomInv u (s.atCreated u join) :=
  (hs.of_sameRooms (SameRooms.atLookup s join)).getOrCreateRoom _

theorem handleJoin_case (s : CollabService) (g : Goroutine) (ctx : Ctx) (join : JoinRoom) :
    JoinCase u g ctx join s (s.handleJoin u g ctx join) := by
  cases hallows : allowsRoom ctx join.sessionId with
  | false =>
    rw [handleJoin_forbidden hallows]
    exact .forbidden _ hallows rfl
  | true =>
    rcases handleJoin_allowed (u := u) (s := s) (g := g) hallows with
      ⟨hr, hmust, e, heq, he⟩ | ⟨r, hr, heq⟩ | ⟨hr, hmust, heq⟩
    · rw [heq]
      exact .lost e hr hmust he
    · cases hrefuse : s.refuses join r with
      | true =>
        rw [heq]
        exact .turnedAway r hallows hr hrefuse
      | false =>
        rw [heq, enterRoom_accepted ((atLookup_refuses s r).trans hrefuse)]
        exact .joined r hallows hr hrefuse
    · rw [(atCreated_eq hr).1] at heq
      cases hrefuse : (s.atCreated u join).refuses join s.nextRoom with
      | true =>
        rw [heq]
        exact .createdRefused hallows hr hmust hrefuse
      | false =>
        rw [heq]
        exact (enterRoom_accepted hrefuse).symm ▸ .created hallows hr hmust hrefuse

end Join

/-! ### Channels of the members -/

/-- Fewer clients, none of whose channels was closed. -/
theorem ChansOpen.of_fewer (hs : ChansOpen s)
    (hclients : ∀ r c, c ∈ (s'.roomAt r).clients → c ∈ (s.roomAt r).clients)
    (hclosed : ∀ r c, c ∈ (s'.roomAt r).clients →
      (s'.clientAt c).sendCh.closed = (s.clientAt c).sendCh.closed) : ChansOpen s' := by
  intro r c hc
  rw [hclosed r c hc]
  exact hs r c (hclients r c hc)

theorem ChansOpen.sameRooms (hs : ChansOpen s) (h : SameRooms s s')
    (hclosed : s'.clientAt = s.clientAt) : ChansOpen s' :=
  hs.of_fewer (fun r _ hc => h.clients r ▸ hc) fun _ _ _ => by rw [hclosed]

theorem ChansOpen.enrolled {ctx : Ctx} {join : JoinRoom} {sid : String} (hs : ChansOpen s) :
    ChansOpen (s.enrolled u g ctx join sid r) := by
  intro r' c hc
  rw [enrolled_clientAt]
  by_cases hnew : c = s.uuid u
  · rw [hnew, Function.update_self]
    rfl
  · rw [Function.update_of_ne hnew]
    exact hs r' c ((mem_enrolled_clients hc).resolve_left fun h => hnew h.2)

theorem ChansOpen.accepted {ctx : Ctx} {join : JoinRoom} {sid : String} (hs : ChansOpen s) :
    ChansOpen ((s.declareEncrypted r join).accept u g ctx join sid r).1 :=
  (hs.sameRooms (.declareEncrypted s r join)
    (declareEncrypted_clientAt s r join)).enrolled.sendsOnly
    accept_sendsOnly

theorem ChansOpen.enterRoom {ctx : Ctx} {join : JoinRoom} {sid : String} (hs : ChansOpen s) :
    ChansOpen (s.enterRoom u g ctx join sid r).1 := by
  cases hrefuse : s.refuses join r with
  | true =>
    exact (hs.sameRooms (.checked s r join) (checked_clientAt s r join)).sendsOnly
      (enterRoom_refused_sendsOnly hrefuse)
  | false =>
    rw [enterRoom_accepted hrefuse]
    exact hs.accepted

theorem ChansOpen.atCreated {join : JoinRoom} (hs : ChansOpen s)
    (hr : s.getRoomByID (s.joinTarget u join) = none) : ChansOpen (s.atCreated u join) := by
  obtain ⟨-, -, hroom, hclient⟩ := atCreated_eq hr
  refine hs.of_fewer (fun r c hc => ?_) fun _ _ _ => by rw [hclient]
  rw [hroom] at hc
  by_cases hr : r = s.nextRoom
  · simp [hr] at hc
  · rwa [Function.update_of_ne hr] at hc

theorem ChansOpen.handleJoin {ctx : Ctx} {join : JoinRoom} (hs : ChansOpen s) :
    ChansOpen (s.handleJoin u g ctx join).1 := by
  have hlook : ChansOpen (s.atLookup u join) :=
    hs.sameRooms (.atLookup s join) (atLookup_clientAt s join)
  have hcase := handleJoin_case (u := u) s g ctx join
  generalize s.handleJoin u g ctx join = result at hcase ⊢
  cases hcase with
  | forbidden _ _ _ => exact hs.sendsOnly (.tick s)
  | lost _ _ _ _ => exact hlook.sendsOnly (.tick _)
  | turnedAway _ _ _ _ => exact hlook.enterRoom
  | joined _ _ _ _ => exact hlook.accepted
  | createdRefused _ hr _ _ => exact (hs.atCreated hr).enterRoom
  | created _ hr _ _ => exact (hs.atCreated hr).accepted

theorem removeRoom_roomAt (s : CollabService) (sid : String) :
    (s.removeRoom sid).roomAt = s.roomAt := (SideStep.removeRoom (.direct 0) s sid).roomAt

theorem removeRoom_clientAt (s : CollabService) (sid : String) :
    (s.removeRoom sid).clientAt = s.clientAt := (SideStep.removeRoom (.direct 0) s sid).clientAt

theorem removeRoom_registered {sid sid' : String}
    (h : (s.removeRoom sid).getRoomByID sid' = some r) : s.getRoomByID sid' = some r :=
  (SideStep.removeRoom (.direct 0) s sid).registered h

theorem ChansOpen.removeRoom (hs : ChansOpen s) (sid : String) : ChansOpen (s.removeRoom sid) := by
  intro r c hc
  rw [removeRoom_roomAt] at hc
  rw [removeRoom_clientAt]
  exact hs r c hc

theorem ChansOpen.announceLeft {reason : String} {n : Nat} (hs : ChansOpen s) :
    ChansOpen (s.announceLeft u g c reason r n).1 := by
  unfold CollabService.announceLeft
  dsimp only
  have hsent := hs.sendsOnly ((SendsOnly.tick s).trans
    (.deliverAll g _ ((s.tick.roomAt r).clients.map (·, peerLeftEvent (s.uuid u) c reason n))))
  refine ChansOpen.sendsOnly ?_ (.tick _)
  split
  · exact hsent.removeRoom _
  · exact hsent

/-- The end of a session closes the channels of one room, and empties it. -/
theorem ChansOpen.endRoom (hwf : RoomsWF u s) (hs : ChansOpen s) :
    ChansOpen (s.endRoom u g c r).1 := by
  unfold CollabService.endRoom
  dsimp only
  refine ChansOpen.sendsOnly (ChansOpen.removeRoom ?_ _) (.tick _)
  have hsend : SendsOnly s (s.tick.broadcastToAll g r (ownerDisconnectedEvent (s.uuid u) c)) :=
    (SendsOnly.tick s).trans (.deliverAll g _ _)
  have hs := hs.sendsOnly hsend
  have hwf := hwf.of_sameRooms hsend.sameRooms
  generalize s.tick.broadcastToAll g r (ownerDisconnectedEvent (s.uuid u) c) = s at hs hwf
  intro r' c' hc'
  have hrooms := SameRooms.closeClients s (s.roomAt r).clients
  by_cases hr : r' = r
  · subst hr
    simp [closeAllClients] at hc'
  · rw [closeAllClients, modifyRoom_roomAt_of_ne _ _ hr, hrooms.clients] at hc'
    have hother : c' ∉ (s.roomAt r).clients := fun h => hr (hwf.room_unique hc' h)
    have hclosed := closed_closeClients s (s.roomAt r).clients c'
    rw [closeAllClients, modifyRoom_clientAt, hclosed, decide_eq_false hother, Bool.false_or]
    exact hs r' c' hc'

theorem ChansOpen.removeLeft (hs : ChansOpen s) : ChansOpen (s.removeLeft r c) :=
  hs.of_fewer (fun _ _ hc => mem_removeLeft_clients hc) fun _ _ _ => rfl

theorem ChansOpen.transferOwner (hs : ChansOpen s) (successor : String) :
    ChansOpen (s.transferOwner r successor) := by
  refine hs.of_fewer (fun r' c' hc' => ?_) fun r' c' _ => ?_
  · rwa [(transferOwner_clients s successor r').1] at hc'
  · by_cases hc : c' = successor
    · rw [hc, transferOwner_clientAt_self]
    · rw [transferOwner_clientAt_of_ne s hc]

theorem ChansOpen.handleLeave {leave : LeaveRoom} {pick : Nat} (hwf : RoomsWF u s)
    (hs : ChansOpen s) : ChansOpen (s.handleLeave u g c leave pick).1 := by
  cases hfind : s.findRoomForClient c with
  | none =>
    unfold CollabService.handleLeave
    rw [hfind]
    exact hs
  | some r =>
    cases handleLeave_cases (u := u) (g := g) leave pick hfind with
    | plain _ heq =>
      rw [heq]
      exact hs.removeLeft.announceLeft
    | ended _ _ _ _ heq =>
      rw [heq]
      exact hs.removeLeft.endRoom hwf.removeLeft
    | moved pick successor _ _ _ heq =>
      rw [heq]
      exact ChansOpen.announceLeft ((hs.removeLeft.transferOwner successor).sendsOnly
        ((SendsOnly.tick _).trans (.deliverAll g _ _)))

theorem ChansOpen.serve (hwf : RoomsWF u s) (hs : ChansOpen s) (req : Request) :
    ChansOpen (s.serve u req) := by
  cases req with
  | receive c => exact hs.sendsOnly (.receive s c)
  | deliverAppMessage g sid c msg => exact hs.sendsOnly (deliverAppMessage_sendsOnly sid msg)
  | handle g ctx a pick =>
    simp only [CollabService.serve, handleAction]
    split
    · exact hs.handleJoin
    · exact hs.handleLeave hwf
    · exact hs.sendsOnly (handlePresence_sendsOnly _)
    · rename_i action _ _ _ _
      cases hfind : s.findRoomForClient a.clientId with
      | none =>
        rw [handleBroadcast_none hfind]
        exact hs
      | some r =>
        refine ChansOpen.sendsOnly ?_ (handleBroadcast_sendsOnly hfind)
        refine hs.sameRooms (.noteRelayed s r action) ?_
        unfold noteRelayed
        split
        · split <;> rfl
        · rfl
        · rfl
    · exact hs

theorem ChansOpen.serveAll (maxPeers : Int) (reqs : List Request) :
    ChansOpen (serveAll u (newCollabService maxPeers) reqs) := by
  induction reqs using List.reverseRecOn with
  | nil => intro r c hc; simp [MassRelay.serveAll, newCollabService] at hc
  | append_singleton reqs req ih =>
    rw [MassRelay.serveAll, List.foldl_append]
    exact ih.serve (RoomInv.serveAll maxPeers reqs).wf req

end CollabService

end MassRelay

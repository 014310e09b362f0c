import MassRelay.Services.Handlers

/-!
# MassRelay.Services.Deliveries

What a client is given of what each goroutine sent it.

A `deliver` call tests the slow flag and puts its event in the queue in two steps,
and other goroutines deliver to the same client meanwhile. Still each goroutine's
events arrive as an unbroken prefix (`InOrder.queued_isPrefix`), because its own calls
come one after another: as long as a client is not slow, the goroutine has queued all
it sent (`Synced`), and once a call of it has missed the client, the flag is up before
its next one looks. The flag also settles when a late put may still land: only one
whose call began before the first miss returned (`InOrder.later`).
-/

namespace MassRelay

namespace CollabService

open Threads

variable {u : UuidSource} {s s' : CollabService} {g : Goroutine} {b : Bool}

/-- The events that `g` put in the queue of `c`. -/
def queuedFrom (s : CollabService) (g : Goroutine) (c : String) : List CollabEvent :=
  (queuedBy g (s.clientAt c).enqueued).map (·.event)

/-- The events of the `deliver` calls that `g` made for `c`. -/
def sentTo (s : CollabService) (g : Goroutine) (c : String) : List CollabEvent :=
  ((sentBy g s.sent).filter (·.client = c)).map (·.event)

/-- What is in the queues, compared with what was sent. -/
structure InOrder (u : UuidSource) (s : CollabService) : Prop where
  queued_isPrefix : ∀ g c, s.queuedFrom g c <+: s.sentTo g c
  missed : ∀ {m}, m ∈ s.missed → Issued u s m.client ∧ (s.clientAt m.client).slow = true
  /-- Whatever gets into the queue was sent by a call that began before a call that
  missed the client returned. -/
  later : ∀ {m}, m ∈ s.missed → ∀ q ∈ (s.clientAt m.client).enqueued, q.call < m.begun
  calls : ∀ {c q}, q ∈ (s.clientAt c).enqueued → q.call < s.sent.length

/-- Goroutine `g` has queued all it sent, up to what a call in progress still has in
hand; of a slow client this is only known while there is such a call. -/
structure Synced (u : UuidSource) (g : Goroutine) (pending : String → List CollabEvent)
    (s : CollabService) : Prop where
  issued : ∀ {d}, d ∈ sentBy g s.sent → Issued u s d.client
  fresh : ∀ {c}, ¬ Issued u s c → queuedBy g (s.clientAt c).enqueued = []
  synced : ∀ {c}, (s.clientAt c).slow = false ∨ pending c ≠ [] →
    s.queuedFrom g c ++ pending c = s.sentTo g c

/-- What is in hand when `g` delivers `e` to `c`. -/
def inHand (c : String) (e : CollabEvent) : String → List CollabEvent :=
  Function.update (fun _ => []) c [e]

theorem sentTo_of_issued {c : String} (h : ∀ {d}, d ∈ sentBy g s.sent → Issued u s d.client)
    (hc : ¬ Issued u s c) : s.sentTo g c = [] := by
  rw [sentTo, List.map_eq_nil_iff, List.filter_eq_nil_iff]
  intro d hd hdc
  exact hc (of_decide_eq_true hdc ▸ h hd)

/-- The other goroutines do not disturb it. -/
theorem Synced.rely {pending : String → List CollabEvent} (hrely : Rely u g s s')
    (hs : Synced u g pending s) : Synced u g pending s' := by
  have hsent : ∀ c, s'.sentTo g c = s.sentTo g c := fun c => by rw [sentTo, hrely.own, sentTo]
  refine ⟨?_, ?_, ?_⟩
  · intro d hd
    rw [hrely.own] at hd
    exact (hs.issued hd).mono hrely.nextUuid
  · intro c hc
    rcases hrely.queued c with heq | ⟨-, hnil⟩
    · rw [heq]
      exact hs.fresh fun h => hc (h.mono hrely.nextUuid)
    · exact hnil
  · intro c hc
    by_cases hissued : Issued u s c
    · have heq : s'.queuedFrom g c = s.queuedFrom g c := by
        rcases hrely.queued c with heq | ⟨hnot, -⟩
        · rw [queuedFrom, heq, queuedFrom]
        · exact absurd hissued hnot
      rw [heq, hsent]
      refine hs.synced (hc.imp_left fun hslow => ?_)
      by_contra h
      simp [(hrely.client hissued).slow (Bool.eq_true_of_not_eq_false h)] at hslow
    -- nothing was sent to an id that is not handed out, nor is anything in hand for it
    · have hnone := sentTo_of_issued hs.issued hissued
      have hqueued : s'.queuedFrom g c = [] := by
        rcases hrely.queued c with heq | ⟨-, hnil⟩
        · rw [queuedFrom, heq, hs.fresh hissued]
          rfl
        · rw [queuedFrom, hnil]
          rfl
      rw [hqueued, hsent, hnone]
      by_cases hpending : pending c = []
      · rw [hpending]
        rfl
      · have := hs.synced (Or.inr hpending)
        rw [hnone, List.append_eq_nil_iff] at this
        exact absurd this.2 hpending

/-! ### Steps outside of `deliver` -/

/-- A step that neither sends nor queues: a queue stays as it is, or belongs to a
client that has just been made. -/
structure QueuesKept (u : UuidSource) (s s' : CollabService) : Prop where
  nextUuid : s.nextUuid ≤ s'.nextUuid
  sent : s'.sent = s.sent
  missed : s'.missed = s.missed
  clients : ∀ c, ((s'.clientAt c).enqueued = (s.clientAt c).enqueued ∧
      (s'.clientAt c).slow = (s.clientAt c).slow) ∨
    (¬ Issued u s c ∧ (s'.clientAt c).enqueued = [])

theorem QueuesKept.refl (u : UuidSource) (s : CollabService) : QueuesKept u s s :=
  ⟨le_rfl, rfl, rfl, fun _ => Or.inl ⟨rfl, rfl⟩⟩

theorem QueuesKept.modifyClient {c : String} {f : CollabClient → CollabClient}
    (henq : (f (s.clientAt c)).enqueued = (s.clientAt c).enqueued)
    (hslow : (f (s.clientAt c)).slow = (s.clientAt c).slow) :
    QueuesKept u s (s.modifyClient c f) := by
  refine { QueuesKept.refl u s with clients := fun c' => Or.inl ?_ }
  by_cases hc : c' = c
  · subst hc
    rw [modifyClient_clientAt_self]
    exact ⟨henq, hslow⟩
  · rw [modifyClient_clientAt_of_ne s f hc]
    exact ⟨rfl, rfl⟩

theorem QueuesKept.closeClients (s : CollabService) (cs : List String) :
    (cs.foldl closeClient s).sent = s.sent ∧ (cs.foldl closeClient s).missed = s.missed ∧
    (cs.foldl closeClient s).nextUuid = s.nextUuid ∧
    ∀ c, ((cs.foldl closeClient s).clientAt c).enqueued = (s.clientAt c).enqueued ∧
      ((cs.foldl closeClient s).clientAt c).slow = (s.clientAt c).slow := by
  refine closeClients_rule (I := fun s' => s'.sent = s.sent ∧ s'.missed = s.missed ∧
    s'.nextUuid = s.nextUuid ∧ ∀ c, (s'.clientAt c).enqueued = (s.clientAt c).enqueued ∧
      (s'.clientAt c).slow = (s.clientAt c).slow) id ?_ ⟨rfl, rfl, rfl, fun _ => ⟨rfl, rfl⟩⟩
  rintro s₁ c' ⟨hsent, hmissed, huuid, hclients⟩
  refine ⟨hsent, hmissed, huuid, fun c => ?_⟩
  rw [← (hclients c).1, ← (hclients c).2]
  by_cases hc : c = c'
  · subst hc
    simp
  · simp [hc]

theorem Effect.queuesKept {o : ServiceOp} (h : Effect u g s o s') (ho : delivering o = false) :
    QueuesKept u s s' := by
  cases h with
  | side h =>
    refine ⟨h.nextUuid, h.sent, h.missed, fun c => Or.inl ?_⟩
    rw [h.clientAt]
    exact ⟨rfl, rfl⟩
  | room r f _ _ _ => exact { QueuesKept.refl u s with }
  | create sid =>
    unfold getOrCreateRoom
    split
    · exact .refl u s
    · exact { QueuesKept.refl u s with }
  | join r ctx join sid peers hfree =>
    refine { QueuesKept.refl u s with nextUuid := Nat.le_succ _, clients := fun c => ?_ }
    by_cases hc : c = s.uuid u
    · subst hc
      exact Or.inr ⟨uuid_not_issued, by simp [addJoined, addClient, newClient]⟩
    · exact Or.inl (by simp [addJoined, addClient, newClient, tick, hc])
  | announce r c =>
    exact { QueuesKept.modifyClient (u := u) (s := s) (c := c)
      (f := fun cl => { cl with progress := .announced }) rfl rfl with }
  | answer c => exact .modifyClient rfl rfl
  | leave r c hfree => exact { QueuesKept.refl u s with }
  | transfer r successor hfree =>
    exact { QueuesKept.modifyClient (u := u) (s := s) (c := successor)
      (f := fun cl => { cl with info := { cl.info with isOwner := true } }) rfl rfl with }
  | closeAll r hfree =>
    obtain ⟨hsent, hmissed, huuid, hclients⟩ := QueuesKept.closeClients s (s.roomAt r).clients
    exact ⟨huuid.ge, hsent, hmissed, fun c => Or.inl (hclients c)⟩
  | deliver _ _ | put _ _ _ _ | slow _ _ => simp [delivering] at ho

theorem QueuesKept.queuedFrom (h : QueuesKept u s s') (g : Goroutine) (c : String) :
    s'.queuedFrom g c = s.queuedFrom g c ∨ (¬ Issued u s c ∧ s'.queuedFrom g c = []) := by
  rcases h.clients c with ⟨henq, -⟩ | ⟨hnew, henq⟩
  · exact Or.inl (by rw [CollabService.queuedFrom, henq, CollabService.queuedFrom])
  · exact Or.inr ⟨hnew, by simp [CollabService.queuedFrom, henq, queuedBy]⟩

theorem QueuesKept.sentTo (h : QueuesKept u s s') (g : Goroutine) (c : String) :
    s'.sentTo g c = s.sentTo g c := by
  rw [CollabService.sentTo, h.sent, CollabService.sentTo]

theorem InOrder.kept (hs : InOrder u s) (h : QueuesKept u s s') : InOrder u s' where
  queued_isPrefix g c := by
    rw [h.sentTo]
    rcases h.queuedFrom g c with heq | ⟨-, hnil⟩
    · rw [heq]
      exact hs.queued_isPrefix g c
    · rw [hnil]
      exact List.nil_prefix
  missed := by
    intro m hm
    rw [h.missed] at hm
    obtain ⟨hissued, hslow⟩ := hs.missed hm
    rcases h.clients m.client with ⟨-, heq⟩ | ⟨hnew, -⟩
    · exact ⟨hissued.mono h.nextUuid, heq.trans hslow⟩
    · exact absurd hissued hnew
  later := by
    intro m hm q hq
    rw [h.missed] at hm
    rcases h.clients m.client with ⟨heq, -⟩ | ⟨-, hnil⟩
    · exact hs.later hm q (heq ▸ hq)
    · simp [hnil] at hq
  calls := by
    intro c q hq
    rw [h.sent]
    rcases h.clients c with ⟨heq, -⟩ | ⟨-, hnil⟩
    · exact hs.calls (heq ▸ hq)
    · simp [hnil] at hq

theorem Synced.kept (hs : Synced u g (fun _ => []) s) (h : QueuesKept u s s') :
    Synced u g (fun _ => []) s' where
  issued := by
    intro d hd
    rw [h.sent] at hd
    exact (hs.issued hd).mono h.nextUuid
  fresh := by
    intro c hc
    rcases h.clients c with ⟨heq, -⟩ | ⟨-, hnil⟩
    · rw [heq]
      exact hs.fresh fun hissued => hc (hissued.mono h.nextUuid)
    · simp [hnil, queuedBy]
  synced := by
    intro c hslow
    rw [h.sentTo]
    rcases h.clients c with ⟨henq, heq⟩ | ⟨hnew, hnil⟩
    · rw [queuedFrom, henq]
      exact hs.synced (hslow.imp_left fun h => heq ▸ h)
    · rw [sentTo_of_issued hs.issued hnew, queuedFrom, hnil]
      rfl

/-! ### The steps of `deliver` -/

section Deliver

variable {c : String} {e : CollabEvent} {k : Nat}

theorem sentTo_append (h : s'.sent = s.sent ++ [⟨g, c, e⟩]) :
    s'.sentTo g c = s.sentTo g c ++ [e] := by
  simp [sentTo, sentBy, h]

theorem sentTo_append_of_ne {g' : Goroutine} {c' : String}
    (h : s'.sent = s.sent ++ [⟨g, c, e⟩]) (hne : g' ≠ g ∨ c' ≠ c) :
    s'.sentTo g' c' = s.sentTo g' c' := by
  rcases hne with hne | hne
  · simp [sentTo, sentBy, h, Ne.symm hne]
  · by_cases hg : g' = g
    · subst hg
      simp [sentTo, sentBy, h, Ne.symm hne]
    · simp [sentTo, sentBy, h, Ne.symm hg]

/-- A call that began kept the queues. -/
theorem beginDeliver_clientAt (s : CollabService) (g : Goroutine) (c : String) (e : CollabEvent) :
    (s.beginDeliver g c e).1.clientAt = s.clientAt := by
  unfold beginDeliver
  dsimp only
  split <;> rfl

theorem prefix_of_sent (hs : InOrder u s) (hclient : s'.clientAt = s.clientAt)
    (hsent : s'.sent = s.sent ++ [⟨g, c, e⟩]) (g' : Goroutine) (c' : String) :
    s'.queuedFrom g' c' <+: s'.sentTo g' c' := by
  rw [queuedFrom, hclient]
  by_cases hne : g' ≠ g ∨ c' ≠ c
  · rw [sentTo_append_of_ne hsent hne]
    exact hs.queued_isPrefix g' c'
  · obtain ⟨rfl, rfl⟩ : g' = g ∧ c' = c := by simpa using hne
    rw [sentTo_append hsent]
    exact (hs.queued_isPrefix g' c').trans (List.prefix_append _ _)

/-- The call skips a slow client: it is on record as one that missed it. -/
theorem InOrder.skip (hs : InOrder u s) (hissued : Issued u s c)
    (hslow : (s.clientAt c).slow = true) : InOrder u (s.beginDeliver g c e).1 := by
  have heq : (s.beginDeliver g c e).1 =
      { s with
        sent := s.sent ++ [⟨g, c, e⟩]
        missed := s.missed ++ [⟨s.sent.length, c, s.sent.length + 1⟩] } := by
    simp [beginDeliver, hslow]
  rw [heq]
  refine ⟨prefix_of_sent hs rfl rfl, ?_, ?_, ?_⟩
  · intro m hm
    rcases List.mem_append.mp hm with hm | hm
    · exact hs.missed hm
    · obtain rfl := List.mem_singleton.mp hm
      exact ⟨hissued, hslow⟩
  · intro m hm q hq
    rcases List.mem_append.mp hm with hm | hm
    · exact hs.later hm q hq
    · obtain rfl := List.mem_singleton.mp hm
      exact (hs.calls hq).trans (Nat.lt_succ_self _)
  · intro c' q hq
    rw [List.length_append]
    exact (hs.calls hq).trans_le (Nat.le_add_right _ _)

/-- The call goes on to put its event. -/
theorem InOrder.begin (hs : InOrder u s) (hslow : (s.clientAt c).slow = false) :
    InOrder u (s.beginDeliver g c e).1 := by
  have heq : (s.beginDeliver g c e).1 = { s with sent := s.sent ++ [⟨g, c, e⟩] } := by
    simp [beginDeliver, hslow]
  rw [heq]
  refine ⟨prefix_of_sent hs rfl rfl, hs.missed, hs.later, ?_⟩
  intro c' q hq
  rw [List.length_append]
  exact (hs.calls hq).trans_le (Nat.le_add_right _ _)

theorem beginDeliver_nextUuid (s : CollabService) (g : Goroutine) (c : String) (e : CollabEvent) :
    (s.beginDeliver g c e).1.nextUuid = s.nextUuid := by
  unfold beginDeliver
  dsimp only
  split <;> rfl

/-- With the call, still only ids that were handed out are sent to. -/
theorem Synced.sent (hs : Synced u g (fun _ => []) s) (hissued : Issued u s c) :
    (∀ {d}, d ∈ sentBy g (s.beginDeliver g c e).1.sent →
      Issued u (s.beginDeliver g c e).1 d.client) ∧
    ∀ {c'}, ¬ Issued u (s.beginDeliver g c e).1 c' →
      queuedBy g ((s.beginDeliver g c e).1.clientAt c').enqueued = [] := by
  have huuid := beginDeliver_nextUuid s g c e
  constructor
  · intro d hd
    rw [beginDeliver_sent, sentBy, List.filter_append, List.mem_append] at hd
    rcases hd with hd | hd
    · exact (hs.issued hd).mono huuid.ge
    · obtain rfl := List.mem_singleton.mp (List.mem_of_mem_filter hd)
      exact hissued.mono huuid.ge
  · intro c' hc'
    rw [beginDeliver_clientAt]
    exact hs.fresh fun h => hc' (h.mono huuid.ge)

theorem Synced.skip (hs : Synced u g (fun _ => []) s) (hissued : Issued u s c)
    (hslow : (s.clientAt c).slow = true) :
    Synced u g (fun _ => []) (s.beginDeliver g c e).1 := by
  have hclient := beginDeliver_clientAt s g c e
  have hsent := beginDeliver_sent s g c e
  refine ⟨(hs.sent hissued).1, (hs.sent hissued).2, ?_⟩
  intro c' hc'
  rw [hclient] at hc'
  have hne : c' ≠ c := by
    rintro rfl
    simp [hslow] at hc'
  rw [sentTo_append_of_ne hsent (Or.inr hne), queuedFrom, hclient]
  exact hs.synced hc'

theorem Synced.begin (hs : Synced u g (fun _ => []) s) (hissued : Issued u s c)
    (hslow : (s.clientAt c).slow = false) :
    Synced u g (inHand c e) (s.beginDeliver g c e).1 := by
  have hclient := beginDeliver_clientAt s g c e
  have hsent := beginDeliver_sent s g c e
  refine ⟨(hs.sent hissued).1, (hs.sent hissued).2, ?_⟩
  intro c' hc'
  rw [hclient] at hc'
  rw [queuedFrom, hclient]
  by_cases hne : c' = c
  · subst hne
    have hsynced := hs.synced (Or.inl hslow)
    rw [List.append_nil] at hsynced
    rw [sentTo_append hsent, inHand, Function.update_self, ← hsynced]
    rfl
  · rw [sentTo_append_of_ne hsent (Or.inr hne)]
    simp only [inHand, Function.update_of_ne hne, ne_eq, not_true_eq_false, or_false] at hc' ⊢
    exact hs.synced (Or.inl hc')

section Put

variable {ch : Go.Chan Queued 64}

/-- The state after a put. -/
def withPut (s : CollabService) (g : Goroutine) (c : String) (e : CollabEvent) (k : Nat)
    (ch : Go.Chan Queued 64) : CollabService :=
  s.modifyClient c fun cl => { cl with sendCh := ch, enqueued := cl.enqueued ++ [⟨e, g, k⟩] }

theorem put?_cases (h : s.put? g c e k = some s') :
    s' = { s with panicked := true } ∨ ∃ ch, s' = s.withPut g c e k ch := by
  rcases put?_eq_some h with ⟨-, rfl⟩ | ⟨ch, -, rfl⟩
  · exact Or.inl rfl
  · exact Or.inr ⟨ch, rfl⟩

theorem withPut_enqueued_self : ((s.withPut g c e k ch).clientAt c).enqueued =
    (s.clientAt c).enqueued ++ [⟨e, g, k⟩] := by
  rw [withPut, modifyClient_clientAt_self]

theorem withPut_clientAt_of_ne {c' : String} (h : c' ≠ c) :
    (s.withPut g c e k ch).clientAt c' = s.clientAt c' :=
  modifyClient_clientAt_of_ne s _ h

theorem withPut_slow (c' : String) :
    ((s.withPut g c e k ch).clientAt c').slow = (s.clientAt c').slow := by
  by_cases hc : c' = c
  · subst hc
    rw [withPut, modifyClient_clientAt_self]
  · rw [withPut_clientAt_of_ne hc]

theorem withPut_queuedFrom_self :
    (s.withPut g c e k ch).queuedFrom g c = s.queuedFrom g c ++ [e] := by
  simp [queuedFrom, queuedBy, withPut_enqueued_self]

theorem withPut_queuedFrom_of_ne {g' : Goroutine} {c' : String} (hne : g' ≠ g ∨ c' ≠ c) :
    (s.withPut g c e k ch).queuedFrom g' c' = s.queuedFrom g' c' := by
  by_cases hc : c' = c
  · subst hc
    have hg : g ≠ g' := Ne.symm (hne.resolve_right (by simp))
    simp [queuedFrom, queuedBy, withPut_enqueued_self, hg]
  · rw [queuedFrom, withPut_clientAt_of_ne hc, queuedFrom]

/-- A put lands what its call has in hand. -/
theorem InOrder.put (hs : InOrder u s) (hsynced : Synced u g (inHand c e) s)
    (hk : k < s.sent.length) (hlate : ∀ m ∈ s.missed, m.client = c → k < m.begun) :
    InOrder u (s.withPut g c e k ch) := by
  refine ⟨?_, ?_, ?_, ?_⟩
  · intro g' c'
    by_cases hne : g' ≠ g ∨ c' ≠ c
    · rw [withPut_queuedFrom_of_ne hne]
      exact hs.queued_isPrefix g' c'
    · obtain ⟨rfl, rfl⟩ : g' = g ∧ c' = c := by simpa using hne
      have := hsynced.synced (c := c') (Or.inr (by simp [inHand]))
      rw [inHand, Function.update_self] at this
      rw [withPut_queuedFrom_self, this]
      exact List.prefix_rfl
  · intro m hm
    obtain ⟨hissued, hslow⟩ := hs.missed hm
    exact ⟨hissued, (withPut_slow m.client).trans hslow⟩
  · intro m hm q hq
    by_cases hc : m.client = c
    · rw [hc, withPut_enqueued_self] at hq
      rcases List.mem_append.mp hq with hq | hq
      · exact hs.later hm q (hc ▸ hq)
      · obtain rfl := List.mem_singleton.mp hq
        exact hlate m hm hc
    · rw [withPut_clientAt_of_ne hc] at hq
      exact hs.later hm q hq
  · intro c' q hq
    by_cases hc : c' = c
    · subst hc
      rw [withPut_enqueued_self] at hq
      rcases List.mem_append.mp hq with hq | hq
      · exact hs.calls hq
      · obtain rfl := List.mem_singleton.mp hq
        exact hk
    · rw [withPut_clientAt_of_ne hc] at hq
      exact hs.calls hq

theorem Synced.put (hs : Synced u g (inHand c e) s) (hissued : Issued u s c) :
    Synced u g (fun _ => []) (s.withPut g c e k ch) := by
  refine ⟨hs.issued, ?_, ?_⟩
  · intro c' hc'
    have hne : c' ≠ c := fun h => hc' (h ▸ hissued)
    rw [withPut_clientAt_of_ne hne]
    exact hs.fresh hc'
  · intro c' hc'
    rw [List.append_nil]
    by_cases hne : c' = c
    · subst hne
      have := hs.synced (c := c') (Or.inr (by simp [inHand]))
      rw [inHand, Function.update_self] at this
      rw [withPut_queuedFrom_self, this]
      rfl
    · rw [withPut_queuedFrom_of_ne (Or.inr hne)]
      rw [withPut_slow] at hc'
      have := hs.synced (c := c') (Or.inl (by simpa using hc'))
      rw [inHand, Function.update_of_ne hne, List.append_nil] at this
      exact this

end Put

theorem markSlow_enqueued (c' : String) :
    ((s.markSlow c k).clientAt c').enqueued = (s.clientAt c').enqueued := by
  by_cases hc : c' = c
  · subst hc
    simp [markSlow]
  · simp [markSlow, hc]

/-- The call found the queue full: from now on the client is slow. -/
theorem InOrder.markSlow (hs : InOrder u s) (hissued : Issued u s c) :
    InOrder u (s.markSlow c k) := by
  have henq := fun c' => markSlow_enqueued (s := s) (c := c) (k := k) c'
  refine ⟨?_, ?_, ?_, ?_⟩
  · intro g' c'
    rw [queuedFrom, henq]
    exact hs.queued_isPrefix g' c'
  · intro m hm
    rcases List.mem_append.mp hm with hm | hm
    · obtain ⟨hm₁, hm₂⟩ := hs.missed hm
      refine ⟨hm₁, ?_⟩
      by_cases hc : m.client = c
      · simp [CollabService.markSlow, hc]
      · simpa [CollabService.markSlow, hc] using hm₂
    · obtain rfl := List.mem_singleton.mp hm
      exact ⟨hissued, by simp [CollabService.markSlow]⟩
  · intro m hm q hq
    rw [henq] at hq
    rcases List.mem_append.mp hm with hm | hm
    · exact hs.later hm q hq
    · obtain rfl := List.mem_singleton.mp hm
      exact hs.calls hq
  · intro c' q hq
    rw [henq] at hq
    exact hs.calls hq

theorem Synced.markSlow (hs : Synced u g (inHand c e) s) :
    Synced u g (fun _ => []) (s.markSlow c k) := by
  refine ⟨hs.issued, ?_, ?_⟩
  · intro c' hc'
    rw [markSlow_enqueued]
    exact hs.fresh hc'
  · intro c' hc'
    have hne : c' ≠ c := by
      rintro rfl
      simp [CollabService.markSlow] at hc'
    have hclient : (s.markSlow c k).clientAt c' = s.clientAt c' := by
      simp [CollabService.markSlow, hne]
    rw [hclient] at hc'
    have := hs.synced (c := c') (Or.inl (by simpa using hc'))
    rw [inHand, Function.update_of_ne hne] at this
    rw [queuedFrom, hclient]
    exact this

end Deliver

/-! ### The protocol of deliveries -/

/-- A goroutine that is in no `deliver` call has queued all it sent. -/
def Settled (u : UuidSource) (g : Goroutine) (s : CollabService) : Prop :=
  s.panicked = true ∨ Synced u g (fun _ => []) s

theorem Settled.rely (hrely : Rely u g s s') (hs : Settled u g s) : Settled u g s' :=
  hs.imp hrely.panicked (Synced.rely hrely)

/-- How deliveries share the queues: a goroutine delivers only to clients of a room it
reads. -/
def deliveries (u : UuidSource) : Protocol CollabService Goroutine ServiceOp Unit where
  inv s := Base u s ∧ InOrder u s
  rely := Rely u
  idle := Settled u
  req g o s := ∀ c ∈ receiver? o, ∃ r, Reading g r [c] s
  ok _ _ _ _ := True
  okLaunch _ _ := True

section Protocol

variable {r : RoomRef} {α : Type}

/-- A step outside of `deliver`, on the way to more. -/
theorem settled_step {o : ServiceOp} (ho : delivering o = false)
    {n : Nat} {a : o.Res} (hinv : Base u s ∧ InOrder u s) (hs : Settled u g s)
    (hx : o.exec u g n s = some (s', a)) : (Base u s' ∧ InOrder u s') ∧ Settled u g s' := by
  have heffect := apply_effect (exec_eq_some hx).2
  have hkept := heffect.queuesKept ho
  refine ⟨⟨hinv.1.effect heffect, hinv.2.kept hkept⟩, ?_⟩
  exact hs.imp heffect.grow.panicked fun hsynced => hsynced.kept hkept

/-- A step outside of `deliver` keeps a goroutine settled, and what no step undoes. -/
theorem settled_keeps {B : CollabService → Prop} (hB : ∀ {s s'}, Grow u s s' → B s → B s')
    {o : ServiceOp} (ho : delivering o = false) :
    Keeps (ServiceOp.exec u) (deliveries u) g (fun s => Settled u g s ∧ B s) (Call.perform o) := by
  refine Keeps.perform ?_ ?_ ?_
  · intro s s₁ hrely ⟨hs, hb⟩
    exact ⟨hs.rely hrely, hB hrely.toGrow hb⟩
  · intro s _ _ c hc
    simp [receiver?_of_delivering ho] at hc
  · intro n s₁ s₂ a hinv ⟨hs, hb⟩ _ hx
    obtain ⟨hinv₂, hs₂⟩ := settled_step ho hinv hs hx
    exact ⟨hinv₂, hs₂, hB (apply_effect (exec_eq_some hx).2).grow hb⟩

section Deliver

variable {cs : List String} {c : String} {e : CollabEvent} {k : Nat}

/-- Between the test of the slow flag and the end of the call: the event is in hand,
and no call that missed the client so far returned before this one began. -/
structure Flying (u : UuidSource) (g : Goroutine) (r : RoomRef) (cs : List String) (c : String)
    (e : CollabEvent) (k : Nat) (s : CollabService) : Prop where
  reading : Reading g r cs s
  synced : s.panicked = true ∨ Synced u g (inHand c e) s
  began : k < s.sent.length
  late : ∀ m ∈ s.missed, m.client = c → k < m.begun

theorem Flying.rely (hrely : Rely u g s s') (hs : Flying u g r cs c e k s) :
    Flying u g r cs c e k s' where
  reading := hs.reading.rely hrely
  synced := hs.synced.imp hrely.panicked (Synced.rely hrely)
  began := hs.began.trans_le hrely.sent.length_le
  late m hm hmc := by
    rcases hrely.missed hm with hm | hm
    · exact hs.late m hm hmc
    · exact hs.began.trans_le hm

theorem Reading.req (hs : Reading g r cs s) (hc : c ∈ cs) {o : ServiceOp}
    (ho : receiver? o = some c) : (deliveries u).req g o s := by
  intro c' hc'
  obtain rfl : c = c' := Option.some.inj (ho.symm.trans hc')
  refine ⟨r, hs.room, hs.reads, fun c'' hc'' => ?_⟩
  obtain rfl := List.mem_singleton.mp hc''
  exact hs.clients _ hc

theorem markSlow_wp (hc : c ∈ cs) (hs : Flying u g r cs c e k s) :
    wp (ServiceOp.exec u) (deliveries u) g (Call.perform (.markSlow c k))
      (fun _ s => Settled u g s ∧ Reading g r cs s) s := by
  refine wp_op hs Flying.rely (fun _ hs => hs.reading.req hc rfl) ?_
  intro n s₁ s₂ a hinv hs _ hx
  obtain ⟨hp, happly⟩ := exec_eq_some hx
  have hbase := hinv.1.effect (apply_effect happly)
  obtain ⟨rfl, -⟩ := Prod.mk.inj (Option.some.inj happly)
  refine ⟨⟨hbase, hinv.2.markSlow (hinv.1.issued (hs.reading.clients c hc))⟩, ?_, ?_⟩
  · exact Or.inr (hs.synced.resolve_left (by simp [hp])).markSlow
  · exact hs.reading.of_rooms rfl rfl

theorem put_wp (hc : c ∈ cs) (hs : Flying u g r cs c e k s) :
    wp (ServiceOp.exec u) (deliveries u) g
      (Call.perform (.put c e k) >>= fun queued =>
        if queued then pure () else Call.perform (.markSlow c k))
      (fun _ s => Settled u g s ∧ Reading g r cs s) s := by
  refine wp_op hs Flying.rely (fun _ hs => hs.reading.req hc rfl) ?_
  intro n s₁ s₂ a hinv hs _ hx
  obtain ⟨hp, happly⟩ := exec_eq_some hx
  have hbase := hinv.1.effect (apply_effect happly)
  obtain ⟨rfl, rfl⟩ := Prod.mk.inj (Option.some.inj happly)
  have hsynced := hs.synced.resolve_left (by simp [hp])
  have hissued := hinv.1.issued (hs.reading.clients c hc)
  cases hput : s₁.put? g c e k with
  | none =>
    rw [hput] at hbase
    exact ⟨⟨hbase, hinv.2⟩, markSlow_wp hc hs⟩
  | some s₃ =>
    rw [hput] at hbase
    rcases put?_cases hput with rfl | ⟨ch, rfl⟩
    · refine ⟨⟨hbase, hinv.2.queued_isPrefix, hinv.2.missed, hinv.2.later, hinv.2.calls⟩, ?_⟩
      exact ⟨Or.inl rfl, hs.reading.of_rooms rfl rfl⟩
    · refine ⟨⟨hbase, hinv.2.put hsynced hs.began hs.late⟩, ?_⟩
      exact ⟨Or.inr (hsynced.put hissued), hs.reading.of_rooms rfl rfl⟩

theorem deliver_keeps (hc : c ∈ cs) :
    Keeps (ServiceOp.exec u) (deliveries u) g
      (fun s => Settled u g s ∧ Reading g r cs s) (Call.deliver c e) := by
  intro s hs
  refine wp_op (A := fun s => Settled u g s ∧ Reading g r cs s) hs
    (fun hrely hs => ⟨hs.1.rely hrely, hs.2.rely hrely⟩) (fun _ hs => hs.2.req hc rfl) ?_
  intro n s₁ s₂ a hinv ⟨hsettled, hreading⟩ _ hx
  obtain ⟨hp, happly⟩ := exec_eq_some hx
  have hbase := hinv.1.effect (apply_effect happly)
  have hreading' := hreading.delivering rfl happly
  obtain ⟨rfl, rfl⟩ := Prod.mk.inj (Option.some.inj happly)
  have hsynced := hsettled.resolve_left (by simp [hp])
  have hissued := hinv.1.issued (hreading.clients c hc)
  cases hslow : (s₁.clientAt c).slow with
  | true =>
    have hskip : (s₁.beginDeliver g c e).2 = none := by simp [beginDeliver, hslow]
    rw [hskip]
    exact ⟨⟨hbase, hinv.2.skip hissued hslow⟩, Or.inr (hsynced.skip hissued hslow), hreading'⟩
  | false =>
    have hcall : (s₁.beginDeliver g c e).2 = some s₁.sent.length := by simp [beginDeliver, hslow]
    rw [hcall]
    refine ⟨⟨hbase, hinv.2.begin hslow⟩, put_wp hc ⟨hreading', ?_, ?_, ?_⟩⟩
    · exact Or.inr (hsynced.begin hissued hslow)
    · rw [beginDeliver_sent, List.length_append]
      exact Nat.lt_succ_self _
    -- a call that missed the client would have left it slow
    · intro m hm hmc
      have hm : m ∈ s₁.missed := by simpa [beginDeliver, hslow] using hm
      have := (hinv.2.missed hm).2
      rw [hmc, hslow] at this
      simp at this

end Deliver

/-! ### The programs -/

/-- Whoever has looked up room `r` and is in no `deliver` call. -/
abbrev Ready (u : UuidSource) (g : Goroutine) (r : RoomRef) (s : CollabService) : Prop :=
  Settled u g s ∧ r < s.nextRoom

theorem ready_keeps {o : ServiceOp} (ho : delivering o = false) :
    Keeps (ServiceOp.exec u) (deliveries u) g (Ready u g r) (Call.perform o) :=
  settled_keeps (fun hgrow hr => hr.trans_le hgrow.nextRoom) ho

theorem rlock_wp (range : Range) (hs : Ready u g r s) :
    wp (ServiceOp.exec u) (deliveries u) g (Call.perform (.rlock r range))
      (fun a s => Settled u g s ∧ Reading g r a.1 s) s := by
  refine wp_op (A := Ready u g r) hs
    (fun hrely hs => ⟨hs.1.rely hrely, hs.2.trans_le hrely.nextRoom⟩)
    (fun _ _ c hc => by simp [receiver?] at hc) ?_
  intro n s₁ s₂ a hinv hready _ hx
  obtain ⟨hinv₂, hsettled₂⟩ := settled_step rfl hinv hready.1 hx
  obtain ⟨rfl, rfl⟩ := Prod.mk.inj (Option.some.inj (exec_eq_some hx).2)
  exact ⟨hinv₂, hsettled₂, rlock_reading s₁ g n range hready.2⟩

theorem broadcast_keeps (range : Range) (build : String → CollabEvent) :
    Keeps (ServiceOp.exec u) (deliveries u) g (Ready u g r) (Call.broadcast r range build) := by
  intro s hs
  refine broadcast_wp (L := fun cs s => Settled u g s ∧ Reading g r cs s) (rlock_wp range hs) ?_ ?_
  · intro c cs s hs
    have hc : c ∈ c :: cs := List.mem_cons_self
    refine wp_mono ?_ (deliver_keeps hc s hs)
    exact fun _ _ h => ⟨h.1, h.2.tail⟩
  · intro s hs
    exact ready_keeps rfl s ⟨hs.1, hs.2.room⟩

theorem plain_keeps {o : ServiceOp} (ho : delivering o = false) :
    Keeps (ServiceOp.exec u) (deliveries u) g (Settled u g) (Call.perform o) := by
  intro s hs
  have hkeeps := settled_keeps (u := u) (g := g) (B := fun _ => True) (fun _ h => h) ho
  exact wp_mono (fun _ _ h => h.1) (hkeeps s ⟨hs, trivial⟩)

/-- A step that looks up a room. -/
theorem lookup_wp {o : ServiceOp} (room? : o.Res → Option RoomRef) (ho : delivering o = false)
    (hres : ∀ {n s s' a r}, Base u s → o.apply u g n s = some (s', a) → room? a = some r →
      r < s'.nextRoom) (hs : Settled u g s) :
    wp (ServiceOp.exec u) (deliveries u) g (Call.perform o)
      (fun a s => Settled u g s ∧ ∀ r, room? a = some r → Ready u g r s) s := by
  refine wp_op hs Settled.rely (fun _ _ c hc => ?_) ?_
  · simp [receiver?_of_delivering ho] at hc
  · intro n s₁ s₂ a hinv hs _ hx
    obtain ⟨hinv₂, hs₂⟩ := settled_step ho hinv hs hx
    exact ⟨hinv₂, hs₂, fun r ha => ⟨hs₂, hres hinv.1 (exec_eq_some hx).2 ha⟩⟩

/-- An action of a client keeps the queues in order. -/
theorem deliveries_actionRules (x : String) :
    ActionRules u (deliveries u) g x (Settled u g) (Ready u g) where
  forget h := h.1
  find hs := by
    refine lookup_wp (o := .findRoomForClient x) id rfl ?_ hs
    intro n s s' a r hbase hx hr
    obtain ⟨rfl, rfl⟩ := Prod.mk.inj (Option.some.inj hx)
    obtain ⟨⟨sid, hsid⟩, -⟩ := findRoomForClient_eq_some hr
    exact (hbase.registered hsid).1
  plain ho := ready_keeps (delivering_of_plain ho)
  remove := ready_keeps rfl
  broadcast _ _ := broadcast_keeps _ _

theorem deliveries_joinRules (ctx : Ctx) (join : JoinRoom) :
    JoinRules u (deliveries u) g ctx join (Settled u g) (fun _ => Ready u g)
      (fun _ => Settled u g) where
  forget h := h.1
  refused _ hs := hs
  outside ho := plain_keeps (delivering_of_plain ho)
  create {sid s} _ _ hs := by
    refine wp_mono (fun r s h => h.2 r rfl) (lookup_wp (o := .getOrCreateRoom sid) some rfl ?_ hs)
    intro n s s' a r hbase hx hr
    obtain rfl := Option.some.inj hr
    have hbase' := hbase.effect (apply_effect hx)
    obtain ⟨rfl, rfl⟩ := Prod.mk.inj (Option.some.inj hx)
    exact (hbase'.registered (getOrCreateRoom_registered s sid)).1
  inside ho := ready_keeps (delivering_of_plain ho)
  accept {sid r enc s} hs := by
    refine wp_mono (fun _ _ h => h.1) (Keeps.bind (ready_keeps rfl) (fun _ =>
      .bind (ready_keeps rfl) fun _ => .bind (ready_keeps rfl) fun _ =>
      .bind (ready_keeps rfl) fun _ => .bind (ready_keeps rfl) fun _ =>
      .bind (broadcast_keeps _ _) fun _ => .bind (ready_keeps rfl) fun _ =>
      .bind (ready_keeps rfl) fun _ => .ret _) s hs)

/-- `HandleAction` keeps the queues in order. -/
theorem handleAction_keeps (ctx : Ctx) (a : CollabAction) :
    Keeps (ServiceOp.exec u) (deliveries u) g (Settled u g) (Call.handleAction ctx a) := by
  refine .bind ?_ fun _ => .bind (plain_keeps rfl) fun _ => .ret _
  by_cases hjoin : ∃ join, a.action = some (.join join)
  · obtain ⟨join, hjoin⟩ := hjoin
    simp only [Call.route, hjoin]
    exact fun s hs => (deliveries_joinRules ctx join).handleJoin_wp hs
  · exact (deliveries_actionRules a.clientId).phases.route_keeps rfl fun join h => hjoin ⟨join, h⟩

/-- So does `DeliverAppMessage`. -/
theorem deliverAppMessage_keeps (sid c : String) (msg : AppMessage) :
    Keeps (ServiceOp.exec u) (deliveries u) g (Settled u g)
      (Call.deliverAppMessage sid c msg) := by
  intro s hs
  refine wp_bind (wp_mono ?_ (lookup_wp (o := .getRoomByID sid) id rfl ?_ hs))
  · rintro room s₁ ⟨hs₁, hready⟩
    cases room with
    | none => exact hs₁
    | some r =>
      refine wp_mono (fun _ _ h => h.1) (Keeps.bind (ready_keeps rfl) (fun eventId => ?_) s₁
        (hready r rfl))
      split
      · exact .bind (broadcast_keeps _ _) fun _ => .bind (ready_keeps rfl) fun _ => .ret _
      · exact .bind (broadcast_keeps _ _) fun _ => .bind (ready_keeps rfl) fun _ => .ret _
  · intro n s s' a r hbase hx hr
    obtain ⟨rfl, rfl⟩ := Prod.mk.inj (Option.some.inj hx)
    exact (hbase.registered hr).1

end Protocol

end CollabService

end MassRelay

import MassRelay.Services.Deliveries

/-!
# MassRelay.Services.Membership

Who acts for whom in the service.

A client is made by the join of one goroutine, its `creator`. The streams of the
relay join from their read loops only, with the principal they were opened with, and
act only for a client that such a join was answered with. On these terms
(`membership`), which `Requires` states step by step, every client carries the
identity of its connection, every event in a queue comes from the stream it is
attributed to, and a client is in no room that its token does not cover
(`Members`).
-/

namespace MassRelay

namespace CollabService

open Threads

variable {u : UuidSource} {s s' : CollabService} {g : Goroutine} {b : Bool}

/-- What a step puts in a queue. -/
theorem apply_enqueued {n : Nat} {o : ServiceOp} {a : o.Res}
    (h : o.apply u g n s = some (s', a)) {c : String} {q : Queued}
    (hq : q ∈ (s'.clientAt c).enqueued) :
    q ∈ (s.clientAt c).enqueued ∨ ∃ e k, o = .put c e k ∧ q = ⟨e, g, k⟩ := by
  cases hdel : delivering o with
  | false =>
    left
    rcases ((apply_effect h).queuesKept hdel).clients c with ⟨heq, -⟩ | ⟨-, hnil⟩
    · rwa [heq] at hq
    · simp [hnil] at hq
  | true =>
    cases o with
    | beginDeliver c' e =>
      obtain ⟨rfl, -⟩ := Prod.mk.inj (Option.some.inj h)
      rw [beginDeliver_clientAt] at hq
      exact Or.inl hq
    | markSlow c' k =>
      obtain ⟨rfl, -⟩ := Prod.mk.inj (Option.some.inj h)
      rw [markSlow_enqueued] at hq
      exact Or.inl hq
    | put c' e k =>
      obtain ⟨rfl, -⟩ := Prod.mk.inj (Option.some.inj h)
      cases hput : s.put? g c' e k with
      | none =>
        rw [hput] at hq
        exact Or.inl hq
      | some s₁ =>
        rw [hput] at hq
        rcases put?_cases hput with rfl | ⟨ch, rfl⟩
        · exact Or.inl hq
        · by_cases hc : c = c'
          · subst hc
            rw [Option.getD_some, withPut_enqueued_self] at hq
            rcases List.mem_append.mp hq with hq | hq
            · exact Or.inl hq
            · exact Or.inr ⟨e, k, rfl, List.mem_singleton.mp hq⟩
          · rw [Option.getD_some, withPut_clientAt_of_ne hc] at hq
            exact Or.inl hq
    | _ => simp [delivering] at hdel

/-! ### The terms -/

/-- The streams join from their read loops, as the principals they were opened with. -/
def JoinsAs (principals : Nat → Ctx) (ctx : Ctx) : Goroutine → Prop
  | .send i => ctx = principals i
  | .direct _ => True
  | _ => False

/-- If `g` belongs to a stream, then `x` is a client that a join of this stream was
answered with. -/
def ActsFor (u : UuidSource) (g : Goroutine) (x : String) (s : CollabService) : Prop :=
  ∀ i, g.stream? = some i → Issued u s x ∧ (s.clientAt x).creator = .send i ∧
    (s.clientAt x).progress = .answered

/-- `p` tells of client `x`, with its identity. -/
structure Describes (u : UuidSource) (s : CollabService) (x : String) (p : PeerInfo) : Prop where
  issued : Issued u s x
  clientId : p.clientId = x
  identity : p.identity = (s.clientAt x).info.identity

/-- `e` is the `PeerJoined` of a client that `g` made. -/
structure Announces (u : UuidSource) (g : Goroutine) (e : CollabEvent) (s : CollabService) :
    Prop where
  peer : ∃ p, e.event = .peerJoined p ∧ Describes u s e.fromClientId p
  creator : (s.clientAt e.fromClientId).creator = g

/-- What `g` may deliver in room `r`: the `PeerJoined` of its own client, or any other
event of the client it acts for there, if it belongs to a stream. -/
def Delivers (u : UuidSource) (g : Goroutine) (r : RoomRef) (e : CollabEvent)
    (s : CollabService) : Prop :=
  Announces u g e s ∨ (e.isPeerJoined = false ∧
    (g.stream? = none ∨ s.acting g = some (e.fromClientId, r)))

/-- What holds before each step. -/
def Requires (u : UuidSource) (principals : Nat → Ctx) (g : Goroutine) (s : CollabService) :
    ServiceOp → Prop
  | .addClient r ctx _ _ peers =>
    JoinsAs principals ctx g ∧ r < s.nextRoom ∧ allowsRoom ctx (s.roomAt r).sessionId = true ∧
      ∀ x p, (x, p) ∈ peers → Describes u s x p
  | .rlock _ (.announce c) =>
    Issued u s c ∧ (s.clientAt c).creator = g ∧ (s.clientAt c).progress ≠ .answered
  | .roomJoinedEvent _ _ _ c _ peers =>
    Issued u s c ∧ (s.clientAt c).creator = g ∧ peers = (s.clientAt c).snapshot
  | .findRoomForClient x | .removeClient _ x => ActsFor u g x s
  | .beginDeliver c e | .put c e _ => ∃ r, Reading g r [c] s ∧ Delivers u g r e s
  | .markSlow c _ => ∃ r, Reading g r [c] s
  | _ => True

theorem requires_of_plain {principals : Nat → Ctx} {o : ServiceOp} (h : plain o = true) :
    Requires u principals g s o := by
  cases o <;> trivial

/-- An entry of a queue comes from its sender's stream, if it has one: it is the
`PeerJoined` of a client that a join of this stream made, or comes after the answer of
that join. -/
structure Authentic (u : UuidSource) (s : CollabService) (q : Queued) : Prop where
  peerJoined : q.event.isPeerJoined = true → Announces u q.sender q.event s
  action : q.event.isPeerJoined = false → ActsFor u q.sender q.event.fromClientId s

/-- What follows for the clients and their queues. -/
structure Members (u : UuidSource) (principals : Nat → Ctx) (s : CollabService) : Prop
    extends Base u s where
  snapshots : ∀ {y x p}, (x, p) ∈ (s.clientAt y).snapshot → Describes u s x p
  identity : ∀ x, (s.clientAt x).info.identity = MassRelay.identity (s.clientAt x).principal
  creator : ∀ {x i}, (s.clientAt x).creator.stream? = some i →
    (s.clientAt x).creator = .send i ∧ (s.clientAt x).principal = principals i
  acting : ∀ {g x r}, s.acting g = some (x, r) → ActsFor u g x s ∧ r < s.nextRoom
  authentic : ∀ {y q}, q ∈ (s.clientAt y).enqueued → Authentic u s q
  confined : ∀ {r c}, c ∈ (s.roomAt r).clients →
    r < s.nextRoom ∧ allowsRoom (s.clientAt c).principal (s.roomAt r).sessionId = true

theorem Members.new {principals : Nat → Ctx} (maxPeers : Int) :
    Members u principals (newCollabService maxPeers) where
  toBase := .new maxPeers
  snapshots h := absurd h List.not_mem_nil
  identity _ := rfl
  creator h := absurd h (by simp [newCollabService, Goroutine.stream?, default])
  acting h := by simp [newCollabService] at h
  authentic h := absurd h List.not_mem_nil
  confined h := by simp [newCollabService] at h

/-- What a goroutine can count on when someone else makes a step. -/
structure MemberRely (u : UuidSource) (g : Goroutine) (s s' : CollabService) : Prop
    extends Rely u g s s' where
  answered : ∀ {c}, Issued u s c → (s.clientAt c).progress = .answered →
    (s'.clientAt c).progress = .answered
  joining : ∀ {c}, Issued u s c → (s.clientAt c).creator = g →
    (s'.clientAt c).progress = (s.clientAt c).progress
  made : ∀ {c}, (s'.clientAt c).creator = g → (s.clientAt c).creator = g

/-- How goroutines share the clients; `principals` is what the streams were opened
with. -/
def membership (u : UuidSource) (principals : Nat → Ctx) :
    Protocol CollabService Goroutine ServiceOp Unit where
  inv := Members u principals
  rely := MemberRely u
  idle _ _ := True
  req g o s := Requires u principals g s o
  ok _ _ _ _ := True
  okLaunch _ _ := True

section Stable

variable {x : String} {p : PeerInfo} {e : CollabEvent} {r : RoomRef}

theorem Describes.grow (hgrow : Grow u s s') (h : Describes u s x p) : Describes u s' x p where
  issued := h.issued.mono hgrow.nextUuid
  clientId := h.clientId
  identity := h.identity.trans (hgrow.client h.issued).identity.symm

theorem Announces.grow (hgrow : Grow u s s') (h : Announces u g e s) : Announces u g e s' := by
  obtain ⟨p, hp, hdescribes⟩ := h.peer
  refine ⟨⟨p, hp, hdescribes.grow hgrow⟩, ?_⟩
  exact (hgrow.client hdescribes.issued).creator.trans h.creator

theorem ActsFor.grow (hgrow : Grow u s s')
    (hanswered : ∀ {c}, Issued u s c → (s.clientAt c).progress = .answered →
      (s'.clientAt c).progress = .answered) (h : ActsFor u g x s) : ActsFor u g x s' := by
  intro i hi
  obtain ⟨hissued, hcreator, hprogress⟩ := h i hi
  exact ⟨hissued.mono hgrow.nextUuid, (hgrow.client hissued).creator.trans hcreator,
    hanswered hissued hprogress⟩

theorem Authentic.grow {q : Queued} (hgrow : Grow u s s')
    (hanswered : ∀ {c}, Issued u s c → (s.clientAt c).progress = .answered →
      (s'.clientAt c).progress = .answered) (h : Authentic u s q) : Authentic u s' q :=
  ⟨fun he => (h.peerJoined he).grow hgrow, fun he => (h.action he).grow hgrow hanswered⟩

end Stable

/-! ### Every step keeps the terms -/

section Step

variable {principals : Nat → Ctx} {n : Nat} {o : ServiceOp} {a : o.Res}

/-- A step that meets its terms does not undo the answer of a join. -/
theorem answered_of_requires (hreq : Requires u principals g s o)
    (h : o.apply u g n s = some (s', a)) {c : String} (hc : Issued u s c)
    (hanswered : (s.clientAt c).progress = .answered) : (s'.clientAt c).progress = .answered := by
  rcases (apply_effect h).client c with ⟨rfl, -⟩ | ⟨-, hprogress⟩
  · exact absurd hc uuid_not_issued
  · rw [hprogress]
    unfold progresses
    split
    · split
      · rename_i heq
        subst heq
        exact absurd hanswered hreq.2.2
      · exact hanswered
    · split
      · rfl
      · exact hanswered
    · exact hanswered

/-- The client a step makes. -/
theorem Makes.clientAt (h : Makes u g o s s') : ∃ r ctx join sid peers,
    o = .addClient r ctx join sid peers ∧
    s'.clientAt (s.uuid u) = newClient g ctx join sid (s.uuid u) peers := by
  obtain ⟨r, ctx, join, sid, peers, ho, -, rfl⟩ := h
  exact ⟨r, ctx, join, sid, peers, ho, by simp [addJoined, addClient, newClient]⟩

theorem MemberRely.of_apply {g' : Goroutine} (hreq : Requires u principals g s o)
    (h : o.apply u g n s = some (s', a)) (hne : g' ≠ g) : MemberRely u g' s s' where
  toRely := (apply_effect h).rely hne
  answered hc hanswered := answered_of_requires hreq h hc hanswered
  joining {c} hc hcreator := by
    rcases (apply_effect h).client c with ⟨rfl, -⟩ | ⟨-, hprogress⟩
    · exact absurd hc uuid_not_issued
    · rw [hprogress]
      unfold progresses
      split
      · split
        · rename_i heq
          subst heq
          exact absurd (hcreator.symm.trans hreq.2.1) hne
        · rfl
      · split
        · rename_i heq
          subst heq
          exact absurd (hcreator.symm.trans hreq.2.1) hne
        · rfl
      · rfl
  made {c} hcreator := by
    rcases (apply_effect h).client c with ⟨rfl, hmakes⟩ | ⟨hclient, -⟩
    · obtain ⟨r, ctx, join, sid, peers, -, hnew⟩ := hmakes.clientAt
      rw [hnew] at hcreator
      exact absurd hcreator.symm hne
    · exact hclient.creator.symm.trans hcreator

theorem MemberRely.refl (u : UuidSource) (g : Goroutine) (s : CollabService) :
    MemberRely u g s s where
  toRely := .refl u g s
  answered _ h := h
  joining _ _ := rfl
  made h := h

theorem MemberRely.trans {s'' : CollabService} (h : MemberRely u g s s')
    (h' : MemberRely u g s' s'') : MemberRely u g s s'' where
  toRely := h.toRely.trans h'.toRely
  answered hc hanswered := h'.answered (hc.mono h.nextUuid) (h.answered hc hanswered)
  joining hc hcreator :=
    (h'.joining (hc.mono h.nextUuid) ((h.client hc).creator.trans hcreator)).trans
      (h.joining hc hcreator)
  made hcreator := h.made (h'.made hcreator)

theorem MemberRely.take? {c : String} {q : Queued} (h : s.take? c = some (q, s')) :
    MemberRely u g s s' := by
  have hsame : ∀ c', (s'.clientAt c').progress = (s.clientAt c').progress ∧
      (s'.clientAt c').creator = (s.clientAt c').creator := by
    intro c'
    obtain ⟨ch, -, rfl⟩ := take?_eq_some h
    by_cases hc : c' = c
    · subst hc
      simp
    · simp [hc]
  exact ⟨Rely.take? h, fun _ hanswered => (hsame _).1.trans hanswered, fun _ _ => (hsame _).1,
    fun hcreator => (hsame _).2.symm.trans hcreator⟩

theorem JoinsAs.of_stream {ctx : Ctx} {i : Nat} (h : JoinsAs principals ctx g)
    (hi : g.stream? = some i) : g = .send i ∧ ctx = principals i := by
  cases g with
  | send j =>
    obtain rfl := Option.some.inj hi
    exact ⟨rfl, h⟩
  | direct k => simp [Goroutine.stream?] at hi
  | bridge _ _ | expiry _ | watchClose _ | closeSend _ _ => exact absurd h (by simp [JoinsAs])

theorem Announces.isPeerJoined {e : CollabEvent} (h : Announces u g e s) :
    e.isPeerJoined = true := by
  obtain ⟨p, hp, -⟩ := h.peer
  simp [CollabEvent.isPeerJoined, hp]

theorem Members.authentic_of_delivers {e : CollabEvent} {k : Nat} {r : RoomRef}
    (hs : Members u principals s) (h : Delivers u g r e s) : Authentic u s ⟨e, g, k⟩ := by
  rcases h with hannounces | ⟨hevent, hacting⟩
  · refine ⟨fun _ => hannounces, fun he => ?_⟩
    rw [hannounces.isPeerJoined] at he
    simp at he
  · refine ⟨fun he => ?_, fun _ => ?_⟩
    · rw [hevent] at he
      simp at he
    · rcases hacting with hnone | hacting
      · exact fun i hi => by simp [hnone] at hi
      · exact (hs.acting hacting).1

/-- A step that meets its terms keeps what follows from them. -/
theorem Members.step (hs : Members u principals s) (hreq : Requires u principals g s o)
    (h : o.apply u g n s = some (s', a)) : Members u principals s' where
  toBase := hs.toBase.effect (apply_effect h)
  snapshots := by
    intro y x p hp
    have hgrow := (apply_effect h).grow
    rcases (apply_effect h).client y with ⟨rfl, hmakes⟩ | ⟨hclient, -⟩
    · obtain ⟨r, ctx, join, sid, peers, rfl, hnew⟩ := hmakes.clientAt
      rw [hnew] at hp
      exact (hreq.2.2.2 x p hp).grow hgrow
    · rw [hclient.snapshot] at hp
      exact (hs.snapshots hp).grow hgrow
  identity := by
    intro x
    rcases (apply_effect h).client x with ⟨rfl, hmakes⟩ | ⟨hclient, -⟩
    · obtain ⟨r, ctx, join, sid, peers, rfl, hnew⟩ := hmakes.clientAt
      rw [hnew]
      rfl
    · rw [hclient.identity, hclient.principal]
      exact hs.identity x
  creator := by
    intro x i hi
    rcases (apply_effect h).client x with ⟨rfl, hmakes⟩ | ⟨hclient, -⟩
    · obtain ⟨r, ctx, join, sid, peers, rfl, hnew⟩ := hmakes.clientAt
      rw [hnew] at hi ⊢
      exact hreq.1.of_stream hi
    · rw [hclient.creator] at hi ⊢
      rw [hclient.principal]
      exact hs.creator hi
  acting := by
    intro g' x r hacting
    have hgrow := (apply_effect h).grow
    -- what a goroutine was acting for before still holds
    have hold : s.acting g' = some (x, r) → ActsFor u g' x s' ∧ r < s'.nextRoom := by
      intro hacting
      obtain ⟨hacts, hr⟩ := hs.acting hacting
      exact ⟨hacts.grow hgrow fun hc hp => answered_of_requires hreq h hc hp,
        hr.trans_le hgrow.nextRoom⟩
    by_cases hg : g' = g
    · subst hg
      rw [(apply_effect h).acting] at hacting
      unfold actingAfter at hacting
      split at hacting
      · obtain ⟨r', hfind, heq⟩ := Option.map_eq_some_iff.mp hacting
        obtain ⟨rfl, rfl⟩ := Prod.mk.inj heq
        obtain ⟨⟨sid, hsid⟩, -⟩ := findRoomForClient_eq_some hfind
        exact ⟨hreq.grow hgrow fun hc hp => answered_of_requires (o := .findRoomForClient _) hreq h
          hc hp, (hs.registered hsid).1.trans_le hgrow.nextRoom⟩
      · simp at hacting
      · exact hold hacting
    · rw [((apply_effect h).rely hg).acting] at hacting
      exact hold hacting
  authentic := by
    intro y q hq
    have hgrow := (apply_effect h).grow
    have hanswered : ∀ {c}, Issued u s c → (s.clientAt c).progress = .answered →
        (s'.clientAt c).progress = .answered := fun hc hp => answered_of_requires hreq h hc hp
    rcases apply_enqueued h hq with hq | ⟨e, k, rfl, rfl⟩
    · exact (hs.authentic hq).grow hgrow hanswered
    · obtain ⟨r, -, hdelivers⟩ := hreq
      exact (hs.authentic_of_delivers hdelivers).grow hgrow hanswered
  confined := by
    intro r c hc
    have hgrow := (apply_effect h).grow
    rcases (apply_effect h).mem_clients hc with hc | ⟨rfl, -, ctx, join, sid, peers, rfl, rfl⟩
    · obtain ⟨hr, hallows⟩ := hs.confined hc
      rw [hgrow.session hr, (hgrow.client (hs.issued hc)).principal]
      exact ⟨hr.trans_le hgrow.nextRoom, hallows⟩
    · obtain ⟨-, hr, hallows, -⟩ := hreq
      refine ⟨hr, ?_⟩
      rw [hgrow.session hr]
      simpa [addJoined, addClient, newClient] using hallows

/-- A bridge that takes an event keeps it too. -/
theorem Members.take? {c : String} {q : Queued} (hs : Members u principals s)
    (h : s.take? c = some (q, s')) : Members u principals s' := by
  have hgrow : Grow u s s' := (Rely.take? (g := .direct 0) h).toGrow
  have hbase := hs.toBase.take? h
  have hrely : MemberRely u (.direct 0) s s' := .take? h
  obtain ⟨ch, -, rfl⟩ := take?_eq_some h
  have hclient : ∀ c', ClientGrow (s.clientAt c') ((s.modifyClient c fun cl =>
      { cl with sendCh := ch, taken := cl.taken ++ [q] }).clientAt c') :=
    fun c' => clientGrow_modifyClient ⟨rfl, rfl, rfl, rfl, rfl, rfl, id, List.prefix_rfl⟩ c'
  refine { toBase := hbase, snapshots := ?_, identity := ?_, creator := ?_, acting := ?_,
           authentic := ?_, confined := ?_ }
  · intro y x p hp
    rw [(hclient y).snapshot] at hp
    exact (hs.snapshots hp).grow hgrow
  · intro x
    rw [(hclient x).identity, (hclient x).principal]
    exact hs.identity x
  · intro x i hi
    rw [(hclient x).creator] at hi ⊢
    rw [(hclient x).principal]
    exact hs.creator hi
  · intro g x r hacting
    obtain ⟨hacts, hr⟩ := hs.acting hacting
    exact ⟨hacts.grow hgrow hrely.answered, hr⟩
  · intro y q hq
    rw [take?_enqueued h] at hq
    exact (hs.authentic hq).grow hgrow hrely.answered
  · intro r c' hc
    rw [(hclient c').principal]
    exact hs.confined hc

end Step

/-! ### The programs -/

/-- A step that makes or answers no join, and starts or ends no action. -/
def steady : ServiceOp → Bool
  | .addClient .. | .rlock _ (.announce _) | .roomJoinedEvent .. | .findRoomForClient _
  | .handled => false
  | _ => true

theorem steady_of_plain {o : ServiceOp} (h : plain o = true) : steady o = true := by
  cases o <;> first | rfl | simp [plain] at h

/-- What `g` sees of the others, and of its own steady steps. -/
structure Steady (u : UuidSource) (g : Goroutine) (s s' : CollabService) : Prop
    extends Grow u s s' where
  answered : ∀ {c}, Issued u s c → (s.clientAt c).progress = .answered →
    (s'.clientAt c).progress = .answered
  joining : ∀ {c}, Issued u s c → (s.clientAt c).creator = g →
    (s'.clientAt c).progress = (s.clientAt c).progress
  made : ∀ {c}, (s'.clientAt c).creator = g → (s.clientAt c).creator = g
  acting : s'.acting g = s.acting g

theorem MemberRely.steady (h : MemberRely u g s s') : Steady u g s s' :=
  ⟨h.toGrow, h.answered, h.joining, h.made, h.acting⟩

theorem Steady.of_apply {n : Nat} {o : ServiceOp} {a : o.Res} (ho : steady o = true)
    (h : o.apply u g n s = some (s', a)) : Steady u g s s' := by
  have hsame : ∀ c, (s'.clientAt c).creator = (s.clientAt c).creator ∧
      (s'.clientAt c).progress = (s.clientAt c).progress := by
    intro c
    rcases (apply_effect h).client c with ⟨rfl, hmakes⟩ | ⟨hclient, hprogress⟩
    · obtain ⟨r, ctx, join, sid, peers, rfl, -⟩ := hmakes
      simp [CollabService.steady] at ho
    · refine ⟨hclient.creator, hprogress.trans ?_⟩
      unfold progresses
      split
      · simp [CollabService.steady] at ho
      · simp [CollabService.steady] at ho
      · rfl
  have hacting : actingAfter s g o = s.acting g := by
    unfold actingAfter
    split
    · simp [CollabService.steady] at ho
    · simp [CollabService.steady] at ho
    · rfl
  exact ⟨(apply_effect h).grow, fun _ hp => (hsame _).2.trans hp, fun _ _ => (hsame _).2,
    fun hc => (hsame _).1.symm.trans hc, (apply_effect h).acting.trans hacting⟩

/-- Every client that `g` made is one of those in `known`. -/
def Owns (g : Goroutine) (known : String → Prop) (s : CollabService) : Prop :=
  ∀ c, (s.clientAt c).creator = g → known c

theorem Owns.steady {known : String → Prop} (h : Steady u g s s') (hs : Owns g known s) :
    Owns g known s' :=
  fun c hc => hs c (h.made hc)

section Rules

variable {principals : Nat → Ctx} {r : RoomRef} {K : CollabService → Prop}

/-- The rule of a step. -/
theorem member_wp {o : ServiceOp} {A : CollabService → Prop} {Q : o.Res → CollabService → Prop}
    (hA : A s) (hstable : ∀ {s₁}, MemberRely u g s s₁ → A s → A s₁)
    (hreq : ∀ {s}, Members u principals s → A s → Requires u principals g s o)
    (hpost : ∀ {n s s' a}, Members u principals s → A s → o.apply u g n s = some (s', a) →
      Q a s') :
    wp (ServiceOp.exec u) (membership u principals) g (Call.perform o) Q s := by
  refine wp_op hA hstable hreq ?_
  intro n s₁ s₂ a hinv hA _ hx
  have happly := (exec_eq_some hx).2
  exact ⟨hinv.step (hreq hinv hA) happly, hpost hinv hA happly⟩

/-- A plain step keeps whatever is steady. -/
theorem steady_keeps (hK : ∀ {s s'}, Steady u g s s' → K s → K s') {o : ServiceOp}
    (ho : plain o = true) :
    Keeps (ServiceOp.exec u) (membership u principals) g K (Call.perform o) := by
  intro s hs
  refine member_wp hs (fun hrely => hK hrely.steady) (fun _ _ => requires_of_plain ho) ?_
  intro n s s' a _ hs hx
  exact hK (.of_apply (steady_of_plain ho) hx) hs

/-- So does a `deliver` call, of an event that `g` may deliver. -/
theorem deliver_wp {c : String} {cs : List String} {e : CollabEvent}
    (hK : ∀ {s s'}, Steady u g s s' → K s → K s') (hdelivers : ∀ {s}, K s → Delivers u g r e s)
    (hs : Reading g r (c :: cs) s ∧ K s) :
    wp (ServiceOp.exec u) (membership u principals) g (Call.deliver c e)
      (fun _ s => Reading g r cs s ∧ K s) s := by
  let A : CollabService → Prop := fun s => Reading g r (c :: cs) s ∧ K s
  have hstable : ∀ {s s'}, MemberRely u g s s' → A s → A s' :=
    fun hrely hs => ⟨hs.1.rely hrely.toRely, hK hrely.steady hs.2⟩
  have hone : ∀ {s}, A s → Reading g r [c] s := fun hs =>
    ⟨hs.1.room, hs.1.reads, fun c' hc' => hs.1.clients c' (by simp_all)⟩
  have hkept : ∀ {n o s s' a}, steady o = true → delivering o = true → A s →
      o.apply u g n s = some (s', a) → A s' :=
    fun ho ho' hs hx => ⟨hs.1.delivering ho' hx, hK (.of_apply ho hx) hs.2⟩
  refine deliver_steps (F := fun _ => A) (M := fun _ => A) ?_ (fun k s hs => ?_) fun k s hs => ?_
  · refine member_wp hs hstable (fun _ hs => ⟨r, hone hs, hdelivers hs.2⟩) ?_
    intro n s s' call _ hs hx
    have hs' := hkept rfl rfl hs hx
    exact ⟨fun _ => ⟨hs'.1.tail, hs'.2⟩, fun _ _ => hs'⟩
  · refine member_wp hs hstable (fun _ hs => ⟨r, hone hs, hdelivers hs.2⟩) ?_
    intro n s s' queued _ hs hx
    have hs' := hkept rfl rfl hs hx
    exact ⟨fun _ => ⟨hs'.1.tail, hs'.2⟩, fun _ => hs'⟩
  · refine member_wp hs hstable (fun _ hs => ⟨r, hone hs⟩) ?_
    intro n s s' a _ hs hx
    have hs' := hkept rfl rfl hs hx
    exact ⟨hs'.1.tail, hs'.2⟩

/-- And a broadcast, once the room is locked. -/
theorem broadcast_steady {range : Range} {build : String → CollabEvent}
    (hK : ∀ {s s'}, Steady u g s s' → K s → K s')
    (hdelivers : ∀ c {s}, K s → Delivers u g r (build c) s)
    (hlock : wp (ServiceOp.exec u) (membership u principals) g (Call.perform (.rlock r range))
      (fun a s => Reading g r a.1 s ∧ K s) s) :
    wp (ServiceOp.exec u) (membership u principals) g (Call.broadcast r range build)
      (fun _ => K) s := by
  refine broadcast_wp (L := fun cs s => Reading g r cs s ∧ K s) hlock ?_ ?_
  · exact fun c cs s hs => deliver_wp hK (hdelivers c) hs
  · intro s hs
    refine member_wp hs.2 (fun hrely => hK hrely.steady) (fun _ _ => trivial) ?_
    exact fun _ hs hx => hK (.of_apply rfl hx) hs

/-- The lock of a broadcast that announces nobody. -/
theorem rlock_wp_steady {range : Range} (hrange : ∀ c, range ≠ .announce c)
    (hK : ∀ {s s'}, Steady u g s s' → K s → K s')
    (hroom : ∀ {s}, Members u principals s → K s → r < s.nextRoom) (hs : K s) :
    wp (ServiceOp.exec u) (membership u principals) g (Call.perform (.rlock r range))
      (fun a s => Reading g r a.1 s ∧ K s) s := by
  have hsteady : steady (.rlock r range) = true := by
    cases range with
    | announce c' => exact absurd rfl (hrange c')
    | _ => rfl
  refine member_wp hs (fun hrely => hK hrely.steady) ?_ ?_
  · intro s _ _
    cases range with
    | announce c' => exact absurd rfl (hrange c')
    | _ => trivial
  · intro n s s' a hinv hs hx
    have hK₁ := hK (.of_apply hsteady hx) hs
    obtain ⟨rfl, rfl⟩ := Prod.mk.inj (Option.some.inj hx)
    exact ⟨rlock_reading s g n range (hroom hinv hs), hK₁⟩

/-! ### Actions -/

variable {known : String → Prop}

/-- Goroutine `g` acts for client `x`. -/
structure Acts (u : UuidSource) (g : Goroutine) (known : String → Prop) (x : String)
    (s : CollabService) : Prop where
  acts : ActsFor u g x s
  owns : Owns g known s

theorem Acts.steady {x : String} (h : Steady u g s s') (hs : Acts u g known x s) :
    Acts u g known x s' :=
  ⟨hs.acts.grow h.toGrow h.answered, hs.owns.steady h⟩

/-- Goroutine `g` carries out an action of client `x` in room `r`. -/
structure Acting (u : UuidSource) (g : Goroutine) (known : String → Prop) (x : String)
    (r : RoomRef) (s : CollabService) : Prop extends Acts u g known x s where
  acting : s.acting g = some (x, r)

theorem Acting.steady {x : String} (h : Steady u g s s') (hs : Acting u g known x r s) :
    Acting u g known x r s' :=
  ⟨hs.toActs.steady h, h.acting.trans hs.acting⟩

theorem membership_actionRules (known : String → Prop) (x : String) :
    ActionRules u (membership u principals) g x (Acts u g known x) (Acting u g known x) where
  forget h := h.toActs
  find {s} hs := by
    refine member_wp hs (fun hrely hs => hs.steady hrely.steady) (fun _ hs => hs.acts) ?_
    intro n s s' a _ hs hx
    have hacting := (apply_effect hx).acting
    have hreq : Requires u principals g s (.findRoomForClient x) := hs.acts
    have hacts : ActsFor u g x s' := hs.acts.grow (apply_effect hx).grow fun hc hp =>
      answered_of_requires hreq hx hc hp
    obtain ⟨rfl, rfl⟩ := Prod.mk.inj (Option.some.inj hx)
    refine ⟨⟨hacts, hs.owns⟩, fun r hr => ⟨⟨hacts, hs.owns⟩, hacting.trans ?_⟩⟩
    simp [actingAfter, hr]
  plain ho := steady_keeps Acting.steady ho
  remove {r s} hs := by
    refine member_wp hs (fun hrely hs => hs.steady hrely.steady) (fun _ hs => hs.acts) ?_
    intro n s s' a _ hs hx
    exact hs.steady (.of_apply rfl hx)
  broadcast {r range build} hrange hbuild s hs := by
    refine broadcast_steady Acting.steady ?_
      (rlock_wp_steady hrange Acting.steady (fun hinv hs => (hinv.acting hs.acting).2) hs)
    intro c s hs
    refine Or.inr ⟨(hbuild c).isPeerJoined, Or.inr ?_⟩
    rw [(hbuild c).fromClientId]
    exact hs.acting

/-! ### Joins -/

/-- Client `c` was made by a join of `g` that began when `m` ids had been handed out and
`g` had made the clients `known`, for session `sid`, and was told of `peers`; the join
has come to `progress`. -/
structure Joining (u : UuidSource) (g : Goroutine) (m : Nat) (known : String → Prop)
    (c sid : String) (peers : List (String × PeerInfo)) (progress : JoinProgress)
    (s : CollabService) : Prop where
  issued : Issued u s c
  fresh : ∃ k, m ≤ k ∧ c = u.new k
  named : (s.clientAt c).info.clientId = c
  creator : (s.clientAt c).creator = g
  snapshot : (s.clientAt c).snapshot = peers
  session : (s.clientAt c).sessionId = sid
  nonempty : sid ≠ ""
  progress : (s.clientAt c).progress = progress
  owns : Owns g (fun x => known x ∨ x = c) s

section Join

variable {m : Nat} {c sid : String} {peers : List (String × PeerInfo)} {progress : JoinProgress}

theorem Joining.steady (h : Steady u g s s') (hs : Joining u g m known c sid peers progress s) :
    Joining u g m known c sid peers progress s' where
  issued := hs.issued.mono h.nextUuid
  fresh := hs.fresh
  named := (h.client hs.issued).clientId.trans hs.named
  creator := (h.client hs.issued).creator.trans hs.creator
  snapshot := (h.client hs.issued).snapshot.trans hs.snapshot
  session := (h.client hs.issued).sessionId.trans hs.session
  nonempty := hs.nonempty
  progress := (h.joining hs.issued hs.creator).trans hs.progress
  owns := hs.owns.steady h

/-- A step of `g` that brings the join of `c` to the next stage. -/
theorem Joining.next (progress' : JoinProgress) {n : Nat} {o : ServiceOp} {a : o.Res}
    (ho : progresses c o = some progress') (h : o.apply u g n s = some (s', a))
    (hs : Joining u g m known c sid peers progress s) : Joining u g m known c sid peers
    progress' s' := by
  have hgrow := (apply_effect h).grow
  rcases (apply_effect h).client c with ⟨rfl, -⟩ | ⟨hclient, hprogress⟩
  · exact absurd hs.issued uuid_not_issued
  · refine ⟨hs.issued.mono hgrow.nextUuid, hs.fresh, hclient.clientId.trans hs.named,
      hclient.creator.trans hs.creator, hclient.snapshot.trans hs.snapshot,
      hclient.sessionId.trans hs.session, hs.nonempty, hprogress.trans ?_, ?_⟩
    · rw [ho]
      rfl
    · intro x hx
      rcases (apply_effect h).client x with ⟨rfl, hmakes⟩ | ⟨hclient, -⟩
      · obtain ⟨r, ctx, join, sid, peers, rfl, -⟩ := hmakes
        simp [progresses] at ho
      · exact hs.owns x (hclient.creator.symm.trans hx)

/-- A join in the room it was resolved to, which its principal may join. -/
structure Entering (g : Goroutine) (m : Nat) (known : String → Prop) (ctx : Ctx) (sid : String)
    (r : RoomRef) (s : CollabService) : Prop where
  begun : m ≤ s.nextUuid
  owns : Owns g known s
  room : r < s.nextRoom
  session : (s.roomAt r).sessionId = sid
  nonempty : sid ≠ ""
  allows : allowsRoom ctx sid = true

theorem Entering.steady {ctx : Ctx} {sid : String} (h : Steady u g s s')
    (hs : Entering g m known ctx sid r s) : Entering g m known ctx sid r s' :=
  ⟨hs.begun.trans h.nextUuid, hs.owns.steady h, hs.room.trans_le h.nextRoom,
    (h.session hs.room).trans hs.session, hs.nonempty, hs.allows⟩

/-- What a join comes to: the client it is answered with is the only one it made. -/
def Joined (u : UuidSource) (g : Goroutine) (m : Nat) (known : String → Prop) (answer : Answer)
    (s : CollabService) : Prop :=
  match roomJoined? answer with
  | some rj => Joining u g m known rj.clientId rj.room.sessionId rj.room.peers .answered s
  | none => Owns g known s

theorem Joined.steady {answer : Answer} (h : Steady u g s s') (hs : Joined u g m known answer s) :
    Joined u g m known answer s' := by
  unfold Joined at hs ⊢
  split at hs
  · exact Joining.steady h hs
  · exact Owns.steady h hs

/-- The client is added: it is new, and carries what its join was told. -/
theorem addClient_wp {ctx : Ctx} {join : JoinRoom} {sid : String}
    (hjoins : JoinsAs principals ctx g)
    (hs : Entering g m known ctx sid r s ∧ ∀ x p, (x, p) ∈ peers → Describes u s x p) :
    wp (ServiceOp.exec u) (membership u principals) g
      (Call.perform (.addClient r ctx join sid peers))
      (fun c s => Joining u g m known c sid peers .added s ∧ r < s.nextRoom) s := by
  refine member_wp (A := fun s => Entering g m known ctx sid r s ∧ ∀ x p, (x, p) ∈ peers →
    Describes u s x p) hs ?_ ?_ ?_
  · exact fun hrely hs => ⟨hs.1.steady hrely.steady, fun x p hp => (hs.2 x p hp).grow hrely.toGrow⟩
  · intro s _ hs
    exact ⟨hjoins, hs.1.room, hs.1.session.symm ▸ hs.1.allows, hs.2⟩
  · intro n s s' c _ hs hx
    obtain ⟨-, heq⟩ := lock_eq_some hx
    obtain ⟨rfl, rfl⟩ := Prod.mk.inj heq
    have hclient : ((s.tick.addJoined r (newClient g ctx join sid (s.uuid u) peers)).clientAt
        (s.uuid u)) = newClient g ctx join sid (s.uuid u) peers := by
      simp [addJoined, addClient, newClient]
    refine ⟨⟨⟨s.nextUuid, Nat.lt_succ_self _, rfl⟩, ⟨s.nextUuid, hs.1.begun, rfl⟩, ?_, ?_, ?_, ?_,
      hs.1.nonempty, ?_, ?_⟩, hs.1.room⟩
    · rw [hclient]
      rfl
    · rw [hclient]
      rfl
    · rw [hclient]
      rfl
    · rw [hclient]
      rfl
    · rw [hclient]
      rfl
    · intro x hx
      by_cases hxc : x = s.uuid u
      · exact Or.inr hxc
      · exact Or.inl (hs.1.owns x (by simpa [addJoined, addClient, newClient, tick, hxc] using hx))

/-- The `PeerJoined` of the new client. -/
theorem peerJoinedEvent_wp {eventId : String}
    (hs : Joining u g m known c sid peers progress s ∧ r < s.nextRoom) :
    wp (ServiceOp.exec u) (membership u principals) g (Call.perform (.peerJoinedEvent eventId c))
      (fun e s => (Joining u g m known c sid peers progress s ∧ r < s.nextRoom) ∧
        Announces u g e s) s := by
  refine member_wp (A := fun s => Joining u g m known c sid peers progress s ∧ r < s.nextRoom) hs
    (fun hrely hs => ⟨hs.1.steady hrely.steady, hs.2.trans_le hrely.nextRoom⟩)
    (fun _ _ => trivial) ?_
  intro n s s' e hinv hs hx
  obtain ⟨rfl, rfl⟩ := Prod.mk.inj (Option.some.inj hx)
  exact ⟨hs, ⟨_, rfl, hs.1.issued, hs.1.named, rfl⟩, hs.1.creator⟩

/-- The `PeerJoined` goes out, and the join is answered. -/
theorem announce_wp {e : CollabEvent}
    (hs : (Joining u g m known c sid peers .added s ∧ r < s.nextRoom) ∧ Announces u g e s) :
    wp (ServiceOp.exec u) (membership u principals) g
      (Call.broadcast r (.announce c) fun _ => e)
      (fun _ => Joining u g m known c sid peers .announced) s := by
  have hsteady : ∀ {s s' p}, Steady u g s s' →
      Joining u g m known c sid peers p s ∧ Announces u g e s →
      Joining u g m known c sid peers p s' ∧ Announces u g e s' :=
    fun h hs => ⟨hs.1.steady h, hs.2.grow h.toGrow⟩
  refine wp_mono (fun _ _ h => h.1) (broadcast_steady
    (K := fun s => Joining u g m known c sid peers .announced s ∧ Announces u g e s) hsteady
    (fun _ _ hs => Or.inl hs.2) ?_)
  refine member_wp (A := fun s => (Joining u g m known c sid peers .added s ∧ r < s.nextRoom) ∧
    Announces u g e s) hs ?_ ?_ ?_
  · exact fun hrely hs => ⟨⟨hs.1.1.steady hrely.steady, hs.1.2.trans_le hrely.nextRoom⟩,
      hs.2.grow hrely.toGrow⟩
  · intro s _ hs
    exact ⟨hs.1.1.issued, hs.1.1.creator, by simp [hs.1.1.progress]⟩
  · intro n s s' a _ hs hx
    have hnext := hs.1.1.next .announced (by simp [progresses]) hx
    have hannounces := hs.2.grow (apply_effect hx).grow
    obtain ⟨rfl, rfl⟩ := Prod.mk.inj (Option.some.inj hx)
    exact ⟨rlock_reading s g n _ hs.1.2, hnext, hannounces⟩

theorem accept_wp {ctx : Ctx} {join : JoinRoom} {sid : String} {enc : Bool}
    (hjoins : JoinsAs principals ctx g) (hs : Entering g m known ctx sid r s) :
    wp (ServiceOp.exec u) (membership u principals) g (Call.accept ctx join sid r enc)
      (Joined u g m known) s := by
  have hsteady : ∀ {s s' c peers p}, Steady u g s s' →
      Joining u g m known c sid peers p s ∧ r < s.nextRoom →
        Joining u g m known c sid peers p s' ∧ r < s'.nextRoom :=
    fun h hs => ⟨hs.1.steady h, hs.2.trans_le h.nextRoom⟩
  refine wp_bind (member_wp hs (fun hrely hs => hs.steady hrely.steady) (fun _ _ => trivial) ?_)
  intro n s₁ s₂ peers hinv hs₁ hx
  obtain ⟨rfl, rfl⟩ := Prod.mk.inj (Option.some.inj hx)
  have hpeers : ∀ x p, (x, p) ∈ s₁.getPeerInfo r → Describes u s₁ x p := by
    intro x p hp
    obtain ⟨y, hy, heq⟩ := List.mem_map.mp hp
    obtain ⟨rfl, rfl⟩ := Prod.mk.inj heq
    exact ⟨hinv.issued hy, hinv.named hy, rfl⟩
  refine wp_bind (wp_mono ?_ (addClient_wp hjoins ⟨hs₁, hpeers⟩))
  intro c s₃ hs₃
  refine wp_bind (wp_mono ?_ (steady_keeps hsteady rfl s₃ hs₃))
  intro _ s₄ hs₄
  refine wp_bind (wp_mono ?_ (steady_keeps hsteady rfl s₄ hs₄))
  intro eventId s₅ hs₅
  refine wp_bind (wp_mono ?_ (peerJoinedEvent_wp hs₅))
  intro e s₆ hs₆
  refine wp_bind (wp_mono ?_ (announce_wp hs₆))
  intro _ s₇ hs₇
  refine wp_bind (wp_mono ?_ (steady_keeps Joining.steady rfl s₇ hs₇))
  intro eventId s₈ hs₈
  refine wp_bind (member_wp hs₈ (fun hrely hs => hs.steady hrely.steady) ?_ ?_)
  · intro s _ hs
    exact ⟨hs.issued, hs.creator, hs.snapshot.symm⟩
  · intro n s s' e _ hs hx
    have hnext := hs.next .answered (by simp [progresses]) hx
    obtain ⟨rfl, rfl⟩ := Prod.mk.inj (Option.some.inj hx)
    exact hnext

theorem membership_joinRules (m : Nat) (known : String → Prop) {ctx : Ctx} {join : JoinRoom}
    (hjoins : JoinsAs principals ctx g) :
    JoinRules u (membership u principals) g ctx join
      (fun s => m ≤ s.nextUuid ∧ Owns g known s) (Entering g m known ctx)
      (Joined u g m known) where
  forget h := ⟨h.begun, h.owns⟩
  refused h hs := by
    simp only [Joined, h]
    exact hs.2
  outside ho := steady_keeps (fun h hs => ⟨hs.1.trans h.nextUuid, hs.2.steady h⟩) ho
  create {sid s} hallows hne hs := by
    refine member_wp (A := fun s => m ≤ s.nextUuid ∧ Owns g known s) hs
      (fun hrely hs => ⟨hs.1.trans hrely.nextUuid, hs.2.steady hrely.steady⟩)
      (fun _ _ => trivial) ?_
    intro n s s' r hinv hs hx
    have hbase := hinv.toBase.effect (apply_effect hx)
    have hsteady : Steady u g s s' := .of_apply rfl hx
    obtain ⟨rfl, rfl⟩ := Prod.mk.inj (Option.some.inj hx)
    obtain ⟨hr, hsid⟩ := hbase.registered (getOrCreateRoom_registered s sid)
    exact ⟨hs.1.trans hsteady.nextUuid, hs.2.steady hsteady, hr, hsid, hne, hallows⟩
  inside ho := steady_keeps Entering.steady ho
  accept hs := accept_wp hjoins hs

end Join

/-! ### The calls -/

/-- Who may make a call of `HandleAction`: a join needs the right principal, anything
else a client to act for. -/
def MayCall (u : UuidSource) (principals : Nat → Ctx) (g : Goroutine) (ctx : Ctx)
    (a : CollabAction) (s : CollabService) : Prop :=
  match a.action with
  | some (.join _) => JoinsAs principals ctx g
  | _ => ActsFor u g a.clientId s

/-- What `HandleAction` comes to: a join is answered with a new client or makes none,
and any other action makes none. -/
def Handled (u : UuidSource) (g : Goroutine) (m : Nat) (known : String → Prop)
    (a : CollabAction) (answer : Answer) (s : CollabService) : Prop :=
  match a.action with
  | some (.join _) => Joined u g m known answer s
  | _ => Owns g known s

theorem Handled.of_clientAt {m : Nat} {a : CollabAction} {answer : Answer}
    (hclient : s'.clientAt = s.clientAt) (huuid : s'.nextUuid = s.nextUuid)
    (hs : Handled u g m known a answer s) : Handled u g m known a answer s' := by
  have howns : ∀ {known : String → Prop}, Owns g known s → Owns g known s' := by
    intro known h c hc
    rw [hclient] at hc
    exact h c hc
  unfold Handled at hs ⊢
  split at hs
  · unfold Joined at hs ⊢
    split at hs
    · refine ⟨hs.issued.mono huuid.ge, hs.fresh, ?_, ?_, ?_, ?_, hs.nonempty, ?_, howns hs.owns⟩ <;>
        rw [hclient]
      · exact hs.named
      · exact hs.creator
      · exact hs.snapshot
      · exact hs.session
      · exact hs.progress
    · exact howns hs
  · exact howns hs

theorem Handled.steady {m : Nat} {a : CollabAction} {answer : Answer} (h : Steady u g s s')
    (hs : Handled u g m known a answer s) : Handled u g m known a answer s' := by
  unfold Handled at hs ⊢
  split at hs
  · exact Joined.steady h hs
  · exact Owns.steady h hs

theorem handleAction_wp {ctx : Ctx} {a : CollabAction}
    (h : MayCall u principals g ctx a s) (howns : Owns g known s) :
    wp (ServiceOp.exec u) (membership u principals) g (Call.handleAction ctx a)
      (Handled u g s.nextUuid known a) s := by
  have hhandled : ∀ (answer : Answer) (s₁ : CollabService),
      Handled u g s.nextUuid known a answer s₁ →
      wp (ServiceOp.exec u) (membership u principals) g
        (Call.perform .handled >>= fun _ => (.ret answer : Call Answer))
        (Handled u g s.nextUuid known a) s₁ := by
    intro answer s₁ hs₁
    refine wp_bind (member_wp hs₁ (fun hrely hs => hs.steady hrely.steady) (fun _ _ => trivial) ?_)
    intro n s₂ s₃ _ _ hs hx
    obtain ⟨rfl, -⟩ := Prod.mk.inj (Option.some.inj hx)
    exact Handled.of_clientAt (s := s₂) rfl rfl hs
  refine wp_bind (wp_mono hhandled ?_)
  by_cases hjoin : ∃ join, a.action = some (.join join)
  · obtain ⟨join, hjoin⟩ := hjoin
    simp only [MayCall, hjoin] at h
    have heq : Handled u g s.nextUuid known a = Joined u g s.nextUuid known := by
      funext answer s₁
      simp only [Handled, hjoin]
    rw [heq]
    simp only [Call.route, hjoin]
    exact (membership_joinRules s.nextUuid known h).handleJoin_wp ⟨le_rfl, howns⟩
  · have hacts : ActsFor u g a.clientId s := by
      unfold MayCall at h
      split at h
      · rename_i join haction
        exact absurd ⟨join, haction⟩ hjoin
      · exact h
    have hroute : wp (ServiceOp.exec u) (membership u principals) g (Call.route ctx a)
        (fun _ => Acts u g known a.clientId) s :=
      (membership_actionRules known a.clientId).phases.route_keeps rfl
        (fun join h => hjoin ⟨join, h⟩) s ⟨hacts, howns⟩
    refine wp_mono (fun answer s₁ hs₁ => ?_) hroute
    unfold Handled
    split
    · rename_i join haction
      exact absurd ⟨join, haction⟩ hjoin
    · exact hs₁.owns

/-- A caller without a stream delivers what it likes. -/
theorem deliverAppMessage_wp {sid c : String} {msg : AppMessage} (hg : g.stream? = none) :
    wp (ServiceOp.exec u) (membership u principals) g (Call.deliverAppMessage sid c msg)
      (fun _ _ => True) s := by
  have hsteady : ∀ {r s s'}, Steady u g s s' → r < s.nextRoom → r < s'.nextRoom :=
    fun h hr => hr.trans_le h.nextRoom
  have hbroadcast : ∀ {r range build}, (∀ c, range ≠ .announce c) →
      (∀ c, (build c).isPeerJoined = false) →
      Keeps (ServiceOp.exec u) (membership u principals) g (fun s => r < s.nextRoom)
        (Call.broadcast r range build) := fun hrange hbuild s hs =>
    broadcast_steady hsteady (fun c _ _ => Or.inr ⟨hbuild c, Or.inl hg⟩)
      (rlock_wp_steady hrange hsteady (fun _ hs => hs) hs)
  refine wp_bind (member_wp (A := fun _ => True) trivial (fun _ _ => trivial)
    (fun _ _ => trivial) ?_)
  intro n s₁ s₂ room hinv _ hx
  obtain ⟨rfl, rfl⟩ := Prod.mk.inj (Option.some.inj hx)
  cases hroom : s₁.getRoomByID sid with
  | none => trivial
  | some r =>
    refine wp_mono (fun _ _ _ => trivial) (Keeps.bind (steady_keeps hsteady rfl) (fun eventId => ?_)
      s₁ (hinv.registered hroom).1)
    split
    · exact .bind (hbroadcast (fun _ => by simp) fun _ => rfl) fun _ =>
        .bind (steady_keeps hsteady rfl) fun _ => .ret _
    · exact .bind (hbroadcast (fun _ => by simp) fun _ => rfl) fun _ =>
        .bind (steady_keeps hsteady rfl) fun _ => .ret _

end Rules

end CollabService

end MassRelay

import MassRelay.Server.Admission
import MassRelay.Server.SessionEnd

/-!
# MassRelay.Server.Farewell

Whether a stream hears that its client was dropped.

When the owner of a room leaves without a successor, `SessionEnded` goes into the `SendCh`
of every client of the room, and then all of these are closed and the clients forgotten.
It is the bridge of a client that carries the event over to the stream. A client that was
added after the broadcast has none in its queue, a slow client neither, and one whose
`Send` had not come to `GetClient` gets no bridge at all: its stream is told that it
joined and then nothing any more (`droppedSilently`). Where the bridge is running or
about to be started when the queues are closed, and the event is in the queue or the slow
flag is up and seen (`HearsEnd`), the stream still has its client in a room or was sent a
`SessionEnded` once everything has come to rest (`nobody_droppedSilently`).
-/

namespace MassRelay

open Threads CollabService

variable {u : UuidSource} {cfg : Nat → StreamConfig} {i : Nat} {c : String} {g : Goroutine}

/-! ### The end of a bridge -/

section Bridge

variable {s s' : Relay} {choice : Choice} {start : Option (Goroutine × Proc Unit)}

/-- A bridge moves no other one. -/
theorem BridgeEffect.elsewhere {j : Nat} {c' : String} {b : Bridge}
    (h : BridgeEffect s j c' b s' start) (hne : i ≠ j ∨ c ≠ c') :
    (s'.streams i).bridges c = (s.streams i).bridges c := by
  have hset : ∀ (s₁ : Relay) (b' : Bridge),
      ((s₁.setBridge j c' b').streams i).bridges c = (s₁.streams i).bridges c := by
    intro s₁ b'
    by_cases hi : i = j
    · subst hi
      have hc : c ≠ c' := hne.resolve_left fun h => h rfl
      simp [Relay.setBridge, hc]
    · simp [Relay.setBridge, hi]
  cases h with
  | put hput _ =>
    rw [hset]
    rcases Relay.put?_cases hput with ⟨-, rfl⟩ | ⟨-, ch, -, rfl⟩
    · rfl
    · exact Relay.modifyStream_field (φ := fun st => st.bridges c) rfl i
  | take _ _ | slow _ _ | stop _ | evict => exact hset _ _

/-- Why a bridge returns: its context is done, the `SendCh` of its client is closed and
drained, or it ends the session of a slow client. -/
theorem Relay.bridgeStep_ended {b : Bridge} (h : s.bridgeStep i c b choice = some (s', start))
    (hended : (s'.streams i).bridges c = .ended) :
    (s.streams i).cancelled = true ∨
    (b = .forwarding ∧ choice = .chan ∧ (s.svc.clientAt c).sendCh.closed = true ∧
      (s.svc.clientAt c).sendCh.buf = []) ∨
    start = some (.bridge i c, Stream.endSession i "slow_consumer") := by
  have hset : ∀ (s₁ : Relay) (b' : Bridge),
      ((s₁.setBridge i c b').streams i).bridges c = b' := by
    intro s₁ b'
    simp [Relay.setBridge]
  unfold Relay.bridgeStep at h
  split at h
  · split at h
    · obtain ⟨rfl, -⟩ := Prod.mk.inj (Option.some.inj h)
      simp [hset] at hended
    · rename_i hnone
      split at h
      · rename_i hclosed
        refine Or.inr (Or.inl ⟨rfl, rfl, hclosed, ?_⟩)
        have hpop : s.svc.take? c = none := Option.map_eq_none_iff.mp hnone
        exact Go.Chan.pop?_eq_none.mp (Option.map_eq_none_iff.mp hpop)
      · simp at h
  · obtain ⟨s₁, -, heq⟩ := Option.map_eq_some_iff.mp h
    obtain ⟨rfl, -⟩ := Prod.mk.inj heq
    simp [hset] at hended
  · split at h
    · obtain ⟨rfl, -⟩ := Prod.mk.inj (Option.some.inj h)
      simp [hset] at hended
    · simp at h
  · split at h
    · obtain ⟨rfl, -⟩ := Prod.mk.inj (Option.some.inj h)
      simp [hset] at hended
    · simp at h
  · split at h
    · exact Or.inl ‹_›
    · simp at h
  · split at h
    · exact Or.inl ‹_›
    · simp at h
  · split at h <;> (obtain ⟨rfl, -⟩ := Prod.mk.inj (Option.some.inj h); simp [hset] at hended)
  · split at h <;> (obtain ⟨rfl, -⟩ := Prod.mk.inj (Option.some.inj h); simp [hset] at hended)
  · exact Or.inr (Or.inr (Prod.mk.inj (Option.some.inj h)).2.symm)
  · simp at h

/-- Only its own steps move a bridge that runs. -/
theorem Launch.apply_bridges {m : Launch} (h : m.apply cfg s = some (s', start))
    (hm : ∀ choice, m ≠ .bridge i c choice) :
    (s'.streams i).bridges c = (s.streams i).bridges c := by
  cases m with
  | recv j =>
    obtain ⟨s₁, hrecv, heq⟩ := Option.map_eq_some_iff.mp h
    obtain ⟨rfl, -⟩ := Prod.mk.inj heq
    obtain ⟨⟨item, ch⟩, -, rfl⟩ := Option.map_eq_some_iff.mp hrecv
    exact Relay.modifyStream_field (φ := fun st => st.bridges c) rfl i
  | bridge j c' choice =>
    refine (Relay.bridgeStep_effect h).elsewhere ?_
    by_contra hsame
    simp only [not_or, ne_eq, not_not] at hsame
    obtain ⟨rfl, rfl⟩ := hsame
    exact hm choice rfl
  | watchClose j | expire j =>
    simp only [Launch.apply] at h
    split at h
    · obtain ⟨rfl, -⟩ := Prod.mk.inj (Option.some.inj h)
      exact Relay.modifyStream_field (φ := fun st => st.bridges c) rfl i
    · simp at h
  | cancel j =>
    obtain ⟨rfl, -⟩ := Prod.mk.inj (Option.some.inj h)
    exact Relay.modifyStream_field (φ := fun st => st.bridges c) rfl i
  | send _ _ | closeSend _ _ | direct _ _ =>
    obtain ⟨rfl, -⟩ := Prod.mk.inj (Option.some.inj h)
    rfl

end Bridge

/-! ### What a client and its stream have heard -/

/-- A `SessionEnded` was put in the client's queue. -/
def CollabClient.HeardEnd (cl : CollabClient) : Prop :=
  ∃ q ∈ cl.enqueued, endsSession q.event = true

instance (cl : CollabClient) : Decidable cl.HeardEnd := by
  unfold CollabClient.HeardEnd
  infer_instance

/-- A `SessionEnded` was put on the stream's `sendCh`. -/
def Stream.SentEnd (st : Stream) : Prop := ∃ item ∈ st.queued, endsSession item.event = true

/-- The stream was sent a `SessionEnded`, or its context is done. -/
def Stream.Parted (st : Stream) : Prop := st.cancelled = true ∨ st.SentEnd

theorem Stream.Parted.mono {st st' : Stream}
    (hcancelled : st.cancelled = true → st'.cancelled = true)
    (hqueued : st.queued <+: st'.queued) (h : st.Parted) : st'.Parted := by
  refine h.imp hcancelled ?_
  rintro ⟨item, hmem, hends⟩
  exact ⟨item, hqueued.subset hmem, hends⟩

/-- The read loop of stream `i` is about to start the bridge of client `c`. -/
def StartsBridge (i : Nat) (c : String) (t : System) : Bool :=
  match t.next? (.send i) with
  | some (.stream j (.goBridge c')) => j = i && c' = c
  | _ => false

theorem startsBridge_iff {t : System} :
    StartsBridge i c t = true ↔ t.next? (.send i) = some (.stream i (.goBridge c)) := by
  unfold StartsBridge
  split
  · rename_i j c' hnext
    simp [hnext]
  · rename_i hnext
    simpa using hnext i c

/-- Some goroutine has still to queue the `SessionEnded` of stream `i`, or to find that
another one did. -/
def EndsAhead (i : Nat) (t : System) (q : Goroutine → Ending) : Prop :=
  ∃ g, q g = .entered ∨ t.next? g = some (.stream i .onceEnter)

section Pool

variable {t : System} {q : Goroutine → Ending} {s : Relay} {p : Proc Unit}

/-- A step that is not about the end of the session. -/
theorem EndsAhead.run {o : Op} {k : o.Res → Proc Unit} {d : Ending} (h : EndsAhead i t q)
    (hg : t.threads g = some (.op o k)) (ho : o ≠ .stream i .onceEnter)
    (hd : q g = .entered → d = .entered) :
    EndsAhead i ⟨s, Function.update t.threads g (left p)⟩ (Function.update q g d) := by
  obtain ⟨g', h⟩ := h
  by_cases hg' : g' = g
  · subst hg'
    rcases h with h | h
    · exact ⟨g', Or.inl (by rw [Function.update_self]; exact hd h)⟩
    · rw [System.next?_of_op hg] at h
      exact absurd (Option.some.inj h) ho
  · refine ⟨g', ?_⟩
    rwa [Function.update_of_ne hg', System.next?_of_ne hg']

theorem EndsAhead.start (h : EndsAhead i t q) (hg : t.threads g = none) :
    EndsAhead i ⟨s, Function.update t.threads g (left p)⟩ q := by
  obtain ⟨g', h⟩ := h
  refine ⟨g', h.imp_right fun hnext => ?_⟩
  rwa [System.next?_of_ne]
  rintro rfl
  simp [System.next?_of_none hg] at hnext

theorem startsBridge_run {o : Op} {k : o.Res → Proc Unit} (h : StartsBridge i c t = true)
    (hg : t.threads g = some (.op o k)) (ho : o ≠ .stream i (.goBridge c)) :
    StartsBridge i c ⟨s, Function.update t.threads g (left p)⟩ = true := by
  rw [startsBridge_iff] at h ⊢
  rwa [System.next?_of_ne]
  rintro rfl
  rw [System.next?_of_op hg] at h
  exact ho (Option.some.inj h)

theorem startsBridge_start (h : StartsBridge i c t = true) (hg : t.threads g = none) :
    StartsBridge i c ⟨s, Function.update t.threads g (left p)⟩ = true := by
  rw [startsBridge_iff] at h ⊢
  rwa [System.next?_of_ne]
  rintro rfl
  simp [System.next?_of_none hg] at h

end Pool

/-! ### Nobody is dropped before it is told -/

/-- What the stream and its client have in common: client `c` is in a room, or its queue was
closed and a bridge empties it or is about to, or the end of the stream is said or on its
way. -/
structure Farewell (i : Nat) (c : String) (t : System) (q : Goroutine → Ending) : Prop where
  done : (t.shared.streams i).endOnce = .done → (t.shared.streams i).Parted
  told : ∀ {g}, q g = .told → (t.shared.streams i).Parted
  closed : (t.shared.svc.clientAt c).creator = .send i →
    (t.shared.svc.clientAt c).sendCh.closed = true →
    (t.shared.svc.clientAt c).slow = true ∨ (t.shared.svc.clientAt c).HeardEnd
  ended : (t.shared.streams i).bridges c = .ended →
    (t.shared.streams i).Parted ∨ EndsAhead i t q
  kept : (t.shared.svc.clientAt c).creator = .send i →
    (∃ r, c ∈ (t.shared.svc.roomAt r).clients) ∨
    ((t.shared.streams i).Parted ∨ EndsAhead i t q) ∨
    ((t.shared.svc.clientAt c).sendCh.closed = true ∧
      ((t.shared.streams i).bridges c ≠ .off ∨ StartsBridge i c t = true))

/-- The rooms are as they were, and so is client `c` but for what was taken out of its
queue. -/
structure HubKept (c : String) (s s' : CollabService) : Prop where
  roomAt : s'.roomAt = s.roomAt
  creator : (s'.clientAt c).creator = (s.clientAt c).creator
  closed : (s'.clientAt c).sendCh.closed = (s.clientAt c).sendCh.closed
  slow : (s'.clientAt c).slow = (s.clientAt c).slow
  enqueued : (s'.clientAt c).enqueued = (s.clientAt c).enqueued

theorem HubKept.refl (c : String) (s : CollabService) : HubKept c s s :=
  ⟨rfl, rfl, rfl, rfl, rfl⟩

theorem HubKept.launch {m : Launch} {s s' : Relay} {start : Option (Goroutine × Proc Unit)}
    (h : m.apply cfg s = some (s', start)) : HubKept c s.svc s'.svc := by
  rcases Launch.apply_svc h with heq | ⟨c', e, htake⟩
  · rw [heq]
    exact .refl c _
  · exact ⟨take?_roomAt htake, (take?_creator htake c).1, take?_closed htake c,
      (take?_creator htake c).2, take?_enqueued htake⟩

section Step

variable {t t' : System} {q q' : Goroutine → Ending} {n : Nat}

theorem Farewell.of_hubKept (hs : Farewell i c t q) (hsvc : HubKept c t.shared.svc t'.shared.svc)
    (hparted : (t.shared.streams i).Parted → (t'.shared.streams i).Parted)
    (hdone : (t'.shared.streams i).endOnce = .done →
      (t.shared.streams i).endOnce = .done ∨ (t'.shared.streams i).Parted)
    (htold : ∀ {g}, q' g = .told → q g = .told ∨ (t'.shared.streams i).Parted)
    (hahead : EndsAhead i t q → (t'.shared.streams i).Parted ∨ EndsAhead i t' q')
    (hended : (t'.shared.streams i).bridges c = .ended → (t.shared.streams i).bridges c = .ended ∨
      ((t'.shared.streams i).Parted ∨ EndsAhead i t' q'))
    (hon : (t.shared.streams i).bridges c ≠ .off ∨ StartsBridge i c t = true →
      (t'.shared.streams i).bridges c ≠ .off ∨ StartsBridge i c t' = true) :
    Farewell i c t' q' := by
  have hpartedOrAhead : (t.shared.streams i).Parted ∨ EndsAhead i t q →
      (t'.shared.streams i).Parted ∨ EndsAhead i t' q' := by
    rintro (h | h)
    · exact Or.inl (hparted h)
    · exact hahead h
  refine ⟨fun h => ?_, fun h => ?_, ?_, fun h => ?_, ?_⟩
  · rcases hdone h with h | h
    · exact hparted (hs.done h)
    · exact h
  · rcases htold h with h | h
    · exact hparted (hs.told h)
    · exact h
  · rw [hsvc.creator, hsvc.closed, hsvc.slow, CollabClient.HeardEnd, hsvc.enqueued]
    exact hs.closed
  · rcases hended h with h | h
    · exact hpartedOrAhead (hs.ended h)
    · exact h
  · rw [hsvc.creator, hsvc.closed, hsvc.roomAt]
    intro hcreator
    rcases hs.kept hcreator with h | h | ⟨hclosed, h⟩
    · exact Or.inl h
    · exact Or.inr (Or.inl (hpartedOrAhead h))
    · exact Or.inr (Or.inr ⟨hclosed, hon h⟩)

/-- The end of the stream was said. -/
theorem Farewell.of_parted (hs : Farewell i c t q) (hsvc : HubKept c t.shared.svc t'.shared.svc)
    (hsaid : (t'.shared.streams i).Parted)
    (hon : (t.shared.streams i).bridges c ≠ .off ∨ StartsBridge i c t = true →
      (t'.shared.streams i).bridges c ≠ .off ∨ StartsBridge i c t' = true) : Farewell i c t' q' :=
  hs.of_hubKept hsvc (fun _ => hsaid) (fun _ => Or.inr hsaid) (fun _ => Or.inr hsaid)
    (fun _ => Or.inl hsaid) (fun _ => Or.inr (Or.inl hsaid)) hon

/-- When stream `i` hears that its client `c` is dropped. The queue of the client is closed
when its bridge runs or is about to be started, and has the `SessionEnded` in it unless the
client is slow. A bridge that finds the queue of a slow client closed and empty sees the
slow flag, unless the `SessionEnded` has gone through. And only the end of the stream's
session removes the client from its room, while the context of the stream lives: the
stream sends no leave, and nobody else leaves as its client. -/
def HearsEnd (i : Nat) (c : String) (t : System) : Move → Prop
  | .run g _ =>
    match t.next? g with
    | some (.service (.closeAllClients r)) => c ∈ (t.shared.svc.roomAt r).clients →
      ((t.shared.streams i).bridges c ≠ .off ∨ StartsBridge i c t = true) ∧
      ((t.shared.svc.clientAt c).slow = true ∨ (t.shared.svc.clientAt c).HeardEnd)
    | some (.service (.removeClient _ c')) =>
      c' = c → (t.shared.streams i).cancelled = true ∨ g.endsStream i = true
    | _ => True
  | .launch (.bridge j c' .chan) =>
    j = i → c' = c → (t.shared.streams i).bridges c = .forwarding →
      (t.shared.svc.clientAt c).sendCh.closed = true → (t.shared.svc.clientAt c).sendCh.buf = [] →
      (t.shared.svc.clientAt c).slow = true → (t.shared.svc.clientAt c).HeardEnd
  | .launch _ => True

instance (i : Nat) (c : String) (t : System) (m : Move) : Decidable (HearsEnd i c t m) :=
  decidable_of_iff ((match m with
    | .run g _ =>
      match t.next? g with
      | some (.service (.closeAllClients r)) => decide (c ∈ (t.shared.svc.roomAt r).clients →
          ((t.shared.streams i).bridges c ≠ .off ∨ StartsBridge i c t = true) ∧
          ((t.shared.svc.clientAt c).slow = true ∨ (t.shared.svc.clientAt c).HeardEnd))
      | some (.service (.removeClient _ c')) =>
        decide (c' = c → (t.shared.streams i).cancelled = true ∨ g.endsStream i = true)
      | _ => true
    | .launch (.bridge j c' .chan) =>
      decide (j = i → c' = c → (t.shared.streams i).bridges c = .forwarding →
        (t.shared.svc.clientAt c).sendCh.closed = true →
        (t.shared.svc.clientAt c).sendCh.buf = [] →
        (t.shared.svc.clientAt c).slow = true → (t.shared.svc.clientAt c).HeardEnd)
    | .launch _ => true) = true) (by
      unfold HearsEnd
      split
      · split
        · exact decide_eq_true_iff
        · exact decide_eq_true_iff
        · exact iff_of_true rfl trivial
      · exact decide_eq_true_iff
      · exact iff_of_true rfl trivial)

/-- A step of the service. -/
theorem Farewell.service {o : ServiceOp} {k : o.Res → Proc Unit} {s : Relay} {a : o.Res}
    (hmembers : Relay.Members u cfg t.shared) (hs : Farewell i c t q)
    (hg : t.threads g = some (.op (.service o) k)) (hmay : (ending i g).may (q g) (.service o))
    (hm : HearsEnd i c t (.run g n)) (hx : (Op.service o).exec u g n t.shared = some (s, a)) :
    Farewell i c ⟨s, Function.update t.threads g (left (k a))⟩ q := by
  obtain ⟨-, happly, heq⟩ := Op.exec_service hx
  have hstreams : s.streams = t.shared.streams := by rw [heq]
  have hnext := System.next?_of_op hg
  -- nothing of the stream changes, and the goroutine was not at one of its steps
  have hahead : EndsAhead i t q → EndsAhead i ⟨s, Function.update t.threads g (left (k a))⟩ q := by
    intro h
    have := h.run (s := s) (p := k a) (d := q g) hg (by simp) id
    rwa [Function.update_eq_self] at this
  have hstarts : StartsBridge i c t = true →
      StartsBridge i c ⟨s, Function.update t.threads g (left (k a))⟩ = true :=
    fun h => startsBridge_run h hg (by simp)
  have hheard : ∀ {cl cl' : CollabClient}, ClientGrow cl cl' → cl.slow = true ∨ cl.HeardEnd →
      cl'.slow = true ∨ cl'.HeardEnd := by
    rintro cl cl' hgrow (h | ⟨e, hmem, hends⟩)
    · exact Or.inl (hgrow.slow h)
    · exact Or.inr ⟨e, hgrow.enqueued.subset hmem, hends⟩
  refine ⟨?_, ?_, ?_, ?_, ?_⟩ <;> dsimp only <;> try rw [hstreams]
  · exact hs.done
  · exact hs.told
  · intro hcreator hclosed
    rcases (apply_effect happly).client c with ⟨rfl, r, ctx, join, sid, peers, -, -, hsvc⟩ |
      ⟨hgrow, -⟩
    · rw [hsvc] at hclosed
      simp [addJoined, addClient, newClient] at hclosed
    · rw [hgrow.creator] at hcreator
      refine hheard hgrow ?_
      rcases (apply_effect happly).closed c with hsame | ⟨-, -, hopen⟩ | ⟨r, rfl, hc, -⟩
      · exact hs.closed hcreator (hsame ▸ hclosed)
      · simp [hopen] at hclosed
      · simp only [HearsEnd, hnext] at hm
        exact (hm hc).2
  · exact fun h => (hs.ended h).imp_right hahead
  · intro hcreator
    rcases (apply_effect happly).client c with ⟨rfl, hmakes⟩ | ⟨hgrow, -⟩
    · exact Or.inl hmakes.mem_clients
    · rw [hgrow.creator] at hcreator
      rcases hs.kept hcreator with ⟨r, hc⟩ | h | ⟨hclosed, h⟩
      -- the client stays in its room unless this step takes it out
      · by_cases hout : TakesOut c o t.shared.svc
        · right
          cases o with
          | removeClient r' c' =>
            obtain rfl : c' = c := hout
            simp only [HearsEnd, hnext] at hm
            -- the stream is cancelled, or its own `endSession` takes the client out
            rcases hm trivial with hcancelled | hends
            · exact Or.inl (Or.inl (Or.inl hcancelled))
            · exact Or.inl (Or.inr ⟨g, Or.inl (hmay hends)⟩)
          | closeAllClients r' =>
            simp only [HearsEnd, hnext] at hm
            -- the end of the room closes the queue of a client that has a bridge
            obtain ⟨hsvc, -⟩ := Prod.mk.inj (lock_eq_some happly).2
            refine Or.inr ⟨?_, (hm hout).1.imp_right hstarts⟩
            rw [hsvc]
            exact closeAllClients_closed hout
          | _ => exact hout.elim
        · exact Or.inl ⟨r, member_stays (hmembers.svc.confined hc).1 hc hout happly⟩
      · exact Or.inr (Or.inl (h.imp_right hahead))
      · rcases (apply_effect happly).closed c with hsame | ⟨rfl, hmakes, -⟩ | ⟨r, rfl, -, hclosed'⟩
        · exact Or.inr (Or.inr ⟨hsame.trans hclosed, h.imp_right hstarts⟩)
        · exact Or.inl hmakes.mem_clients
        · exact Or.inr (Or.inr ⟨hclosed', h.imp_right hstarts⟩)

theorem Stream.Parted.of_eq {st st' : Stream} (hcancelled : st'.cancelled = st.cancelled)
    (hqueued : st'.queued = st.queued) (h : st.Parted) : st'.Parted :=
  h.mono (hcancelled ▸ id) (hqueued ▸ List.prefix_rfl)

/-- A step on stream `i`, of a goroutine of it. -/
theorem Farewell.stream {o : StreamOp} {k : o.Res → Proc Unit} {s : Relay} {a : o.Res}
    (hs : Farewell i c t q) (hg : t.threads g = some (.op (.stream i o) k))
    (hmay : (q g).MayOn o) (hx : o.apply i n t.shared = some (s, a)) (hp : s.panicked = false) :
    Farewell i c ⟨s, Function.update t.threads g (left (k a))⟩
      (Function.update q g ((q g).nextOn o a)) := by
  have heffect := StreamOp.apply_effect hx
  have hsvc : HubKept c t.shared.svc s.svc := by
    rw [heffect.svc]
    exact .refl c _
  have hon : (t.shared.streams i).bridges c ≠ .off ∨ StartsBridge i c t = true →
      (s.streams i).bridges c ≠ .off ∨
        StartsBridge i c ⟨s, Function.update t.threads g (left (k a))⟩ = true := by
    rw [heffect.bridges]
    intro h
    cases o with
    | goBridge c' =>
      by_cases hc : c = c'
      · subst hc
        exact Or.inl (by simp [StreamOp.bridgesAfter])
      · simp only [StreamOp.bridgesAfter, Function.update_of_ne hc]
        refine h.imp_right fun h => startsBridge_run h hg ?_
        simpa using Ne.symm hc
    | _ => exact h.imp_right fun h => startsBridge_run h hg (by simp)
  have hended : (s.streams i).bridges c = .ended → (t.shared.streams i).bridges c = .ended := by
    rw [heffect.bridges]
    cases o with
    | goBridge c' =>
      by_cases hc : c = c'
      · subst hc
        simp [StreamOp.bridgesAfter]
      · simp [StreamOp.bridgesAfter, hc]
    | _ => exact id
  -- a step that says nothing and leaves the goroutine where it is with the end of the session
  have hplain : (q g).nextOn o a = q g → o ≠ .onceEnter →
      ((t.shared.streams i).Parted → (s.streams i).Parted) →
      (s.streams i).endOnce = (t.shared.streams i).endOnce →
      Farewell i c ⟨s, Function.update t.threads g (left (k a))⟩
        (Function.update q g ((q g).nextOn o a)) := by
    intro hstays ho hparted honce
    refine hs.of_hubKept hsvc hparted (fun h => Or.inl (honce ▸ h)) ?_ (fun h => ?_)
      (fun h => Or.inl (hended h)) hon
    · rw [hstays, Function.update_eq_self]
      exact Or.inl
    · exact Or.inr (h.run hg (by simpa using ho) fun hentered => hstays.trans hentered)
  cases o with
  | reply e =>
    obtain ⟨hcancelled, hqueued⟩ := Relay.reply_queued hx
    have hparted : (t.shared.streams i).Parted → (s.streams i).Parted := by
      refine Stream.Parted.mono (hcancelled ▸ id) ?_
      rcases hqueued with ⟨-, hqueued⟩ | ⟨hqueued, -⟩
      · exact hqueued ▸ List.prefix_append _ _
      · exact hqueued ▸ List.prefix_rfl
    cases hq : q g with
    | outside => exact hq ▸ hplain (by rw [hq]; rfl) (by simp) hparted heffect.endOnce
    | entered =>
      rw [hq] at hmay
      -- the reply inside the once is the `SessionEnded`, unless the context is done
      have hsaid : (s.streams i).Parted := by
        rcases hqueued with ⟨-, hqueued⟩ | ⟨-, h | h⟩
        · refine Or.inr ⟨.reply e, ?_, hmay⟩
          rw [hqueued]
          exact List.mem_append_right _ (List.mem_singleton_self _)
        · simp [hp] at h
        · exact Or.inl (hcancelled.trans h)
      exact hs.of_parted hsvc hsaid hon
    | told =>
      rw [hq] at hmay
      exact hmay.elim
  | onceEnter =>
    obtain ⟨hcancelled, hqueued⟩ := StreamOp.apply_queued (by simp) hx
    have hparted := Stream.Parted.of_eq hcancelled hqueued
    cases hq : q g with
    | outside =>
      cases a with
      | true =>
        have hentered : EndsAhead i ⟨s, Function.update t.threads g (left (k true))⟩
            (Function.update q g (Ending.outside.nextOn .onceEnter true)) :=
          ⟨g, Or.inl (by rw [Function.update_self]; rfl)⟩
        refine hs.of_hubKept hsvc hparted ?_ (fun {g'} h => ?_) (fun _ => Or.inr hentered)
          (fun h => Or.inl (hended h)) hon
        · intro h
          rw [heffect.endOnce, StreamOp.onceAfter] at h
          split at h
          · simp at h
          · exact Or.inl h
        · by_cases hg' : g' = g
          · subst hg'
            rw [Function.update_self] at h
            simp [Ending.nextOn] at h
          · rw [Function.update_of_ne hg'] at h
            exact Or.inl h
      | false =>
        -- another goroutine has ended the session
        have hdone : (t.shared.streams i).endOnce = .done := by
          simp only [StreamOp.apply] at hx
          split at hx
          · simp at hx
          · simp at hx
          · assumption
        have hsaid : (s.streams i).Parted := hparted (hs.done hdone)
        exact hs.of_parted hsvc hsaid hon
    | entered | told =>
      rw [hq] at hmay
      exact hmay.elim
  | onceExit =>
    obtain ⟨hcancelled, hqueued⟩ := StreamOp.apply_queued (by simp) hx
    have hparted := Stream.Parted.of_eq hcancelled hqueued
    cases hq : q g with
    | told =>
      have hsaid : (s.streams i).Parted := hparted (hs.told hq)
      exact hs.of_parted hsvc hsaid hon
    | outside | entered =>
      rw [hq] at hmay
      exact hmay.elim
  | _ =>
    obtain ⟨hcancelled, hqueued⟩ := StreamOp.apply_queued (by simp) hx
    refine hplain ?_ (by simp) (Stream.Parted.of_eq hcancelled hqueued) heffect.endOnce
    cases q g <;> rfl

/-- A bridge that has drained the closed queue of its client passed everything on. -/
theorem sentEnd_of_drained {s : Relay} (hqueue : QueueOK (s.svc.clientAt c)) (hs : Forwards s)
    (hp : s.panicked = false) (hbridge : (s.streams i).bridges c = .forwarding)
    (hempty : (s.svc.clientAt c).sendCh.buf = []) (hheard : (s.svc.clientAt c).HeardEnd) :
    (s.streams i).SentEnd := by
  obtain ⟨e, hmem, hends⟩ := hheard
  have hpassed := hs.passed hp i c
  rw [hbridge] at hpassed
  rw [hqueue, hempty, List.append_nil, ← hpassed] at hmem
  obtain ⟨item, hitem, hfrom⟩ := List.mem_filterMap.mp hmem
  cases item with
  | room c' e' =>
    simp only [Item.from?] at hfrom
    split at hfrom
    · obtain rfl := Option.some.inj hfrom
      exact ⟨_, hitem, hends⟩
    · simp at hfrom
  | reply e' => simp [Item.from?] at hfrom

/-- What comes from outside; `t'` is the pool with the goroutine that it starts. -/
theorem Farewell.launch {m : Launch} {s : Relay} {start : Option (Goroutine × Proc Unit)}
    (hmembers : Relay.Members u cfg t.shared) (hforwards : Forwards t.shared)
    (hs : Farewell i c t q) (hp : t.shared.panicked = false)
    (hm : HearsEnd i c t (.launch m)) (h : m.apply cfg t.shared = some (s, start))
    (ht' : t'.shared = s) (hahead : EndsAhead i t q → EndsAhead i t' q)
    (hstarts : StartsBridge i c t = true → StartsBridge i c t' = true)
    (hevict : start = some (.bridge i c, Stream.endSession i "slow_consumer") → EndsAhead i t' q) :
    Farewell i c t' q := by
  subst ht'
  have hkept := Launch.apply_joinsKept h
  obtain ⟨hcancelled, hqueued⟩ := Launch.apply_queued (i := i) h
  have hparted : (t.shared.streams i).Parted → (t'.shared.streams i).Parted := by
    refine Stream.Parted.mono hcancelled ?_
    rcases hqueued with hqueued | ⟨c', e, -, -, hqueued⟩
    · exact hqueued ▸ List.prefix_rfl
    · exact hqueued ▸ List.prefix_append _ _
  refine hs.of_hubKept (.launch h) hparted (fun hdone => Or.inl (hkept.endOnce i ▸ hdone)) Or.inl
    (fun h => Or.inr (hahead h)) (fun hended => ?_) ?_
  · by_cases hbridge : ∃ choice, m = .bridge i c choice
    · obtain ⟨choice, rfl⟩ := hbridge
      right
      rcases Relay.bridgeStep_ended h hended with hdone
        | ⟨hforwarding, rfl, hclosed, hempty⟩ | hevicted
      · exact Or.inl (hparted (Or.inl hdone))
      · refine Or.inl (hparted (Or.inr ?_))
        refine sentEnd_of_drained (hmembers.svc.queue c) hforwards hp hforwarding hempty ?_
        have hcreator : (t.shared.svc.clientAt c).creator = .send i := by
          obtain ⟨rj, hrj, rfl⟩ := hmembers.bridges (i := i) (c := c) (by simp [hforwarding])
          exact (hmembers.answered hrj).creator
        rcases hs.closed hcreator hclosed with hslow | hheard
        · exact hm rfl rfl hforwarding hclosed hempty hslow
        · exact hheard
      · exact Or.inr (hevict hevicted)
    · rw [Launch.apply_bridges h fun choice hm => hbridge ⟨choice, hm⟩] at hended
      exact Or.inl hended
  · exact Or.imp (fun hoff => by rwa [ne_eq, hkept.bridges]) hstarts

/-- Every move keeps the stream from losing its client unheard, unless the process goes
down. -/
theorem Farewell.move {m : Move} (hmembers : Holds (Op.exec u) (Relay.membership u cfg) t)
    (hforwards : Forwards t.shared) (hq : Disciplined (ending i) (fun _ q => q = .outside) t q)
    (hs : t.shared.panicked = false → Farewell i c t q) (hm : HearsEnd i c t m)
    (h : System.step u cfg t m = some t') :
    ∃ q', Disciplined (ending i) (fun _ q => q = .outside) t' q' ∧
      (t'.shared.panicked = false → Farewell i c t' q') := by
  rcases hq.step h with ⟨g, n, o, k, s, a, rfl, hg, hx, hmay, rfl, hfollows⟩ |
    ⟨m', s, rfl, hl, rfl, hfollows⟩ | ⟨m', s, g, p, rfl, hl, hnone, hidle, rfl, hfollows⟩
  · cases o with
    | service o =>
      obtain ⟨hcrash, happly, -⟩ := Op.exec_service hx
      refine ⟨_, hfollows (ServiceOp.apply_goesOn happly), fun _ => ?_⟩
      simp only [ending, Function.update_eq_self]
      exact (hs (panicked_of_crashed hcrash)).service hmembers.inv hg hmay hm hx
    | stream j o =>
      obtain ⟨hcrash, happly⟩ := Op.exec_stream hx
      have hreq := hmembers.req Relay.membership_sound hg
      have hs := hs (panicked_of_crashed hcrash)
      refine ⟨_, hfollows trivial, fun hp => ?_⟩
      by_cases hj : i = j
      · subst hj
        have hnext : (ending i g).next (q g) (.stream i o) a = (q g).nextOn o a :=
          if_pos ⟨hreq.1, rfl⟩
        rw [hnext]
        exact hs.stream hg (hmay hreq.1 rfl) happly hp
      · have hnext : (ending i g).next (q g) (.stream j o) a = q g := if_neg fun h => hj h.2.symm
        have heffect := StreamOp.apply_effect happly
        have hstream := heffect.other hj
        rw [hnext, Function.update_eq_self]
        have hsvc : HubKept c t.shared.svc s.svc := by
          rw [heffect.svc]
          exact .refl c _
        refine hs.of_hubKept hsvc (fun h => hstream ▸ h) (fun h => Or.inl (hstream ▸ h)) Or.inl
          (fun h => Or.inr ?_) (fun h => Or.inl (hstream ▸ h)) (Or.imp (fun h => hstream ▸ h) ?_)
        · have := h.run (s := s) (p := k a) (d := q g) hg (by simp [Ne.symm hj]) id
          rwa [Function.update_eq_self] at this
        · exact fun h => startsBridge_run h hg (by simp [Ne.symm hj])
  · obtain ⟨hcrash, happly⟩ := Launch.launch_eq_some hl
    refine ⟨q, hfollows, fun _ => ?_⟩
    exact (hs (panicked_of_crashed hcrash)).launch hmembers.inv hforwards
      (panicked_of_crashed hcrash) hm happly rfl id id (by simp)
  · obtain ⟨hcrash, happly⟩ := Launch.launch_eq_some hl
    refine ⟨_, hfollows .outside (start_ending happly), fun _ => ?_⟩
    have hsame : Function.update q g .outside = q := by
      rw [← hidle, Function.update_eq_self]
    rw [hsame]
    refine (hs (panicked_of_crashed hcrash)).launch hmembers.inv hforwards
      (panicked_of_crashed hcrash) hm happly rfl (fun h => h.start hnone)
      (fun h => startsBridge_start h hnone) fun hstart => ?_
    obtain ⟨rfl, rfl⟩ := Prod.mk.inj (Option.some.inj hstart)
    -- the bridge starts the `endSession` of a slow client, and that is still ahead
    refine ⟨.bridge i c, Or.inr ?_⟩
    simp only [System.next?, Function.update_self]
    rfl

end Step

/-! ### Every run -/

section Run

variable {maxPeers : Int} {moves : List Move} {t : System}

theorem farewell_run
    (hguard : Machine.Guarded (System.step u cfg) (HearsEnd i c) (System.init maxPeers) moves)
    (h : System.run u cfg (System.init maxPeers) moves = some t) :
    ∃ q, Disciplined (ending i) (fun _ q => q = .outside) t q ∧
      (t.shared.panicked = false → Farewell i c t q) := by
  refine (Relay.membership_sound.invariant (C := HearsEnd i c) (I := fun t =>
    Forwards t.shared ∧ ∃ q, Disciplined (ending i) (fun _ q => q = .outside) t q ∧
      (t.shared.panicked = false → Farewell i c t q)) (fun _ => Relay.membership_ok) ?_
    (Relay.membership_init maxPeers) ⟨.init maxPeers, ?_⟩ hguard h).2.2
  · rintro t m t' hmembers hm ⟨hforwards, q, hq, hs⟩ hmove
    exact ⟨hforwards.move hmembers hmove, Farewell.move hmembers hforwards hq hs hm hmove⟩
  · refine ⟨fun _ => .outside, .init fun _ => rfl, fun _ => ⟨?_, ?_, ?_, ?_, ?_⟩⟩
    · simp [System.init]
    · simp
    · intro hcreator
      simp [System.init, newCollabService, default] at hcreator
    · simp [System.init]
    · intro hcreator
      simp [System.init, newCollabService, default] at hcreator

/-- The bridge was not started, has returned, or waits for an event of its client. -/
def Bridge.Rests (b : Bridge) (cl : CollabClient) : Prop :=
  b = .off ∨ b = .ended ∨ (b = .forwarding ∧ cl.sendCh.buf = [] ∧ cl.sendCh.closed = false)

instance (b : Bridge) (cl : CollabClient) : Decidable (b.Rests cl) := by
  unfold Bridge.Rests
  infer_instance

/-- Everything has come to rest: the process is up, no call is in progress, and no bridge of
stream `i` has anything to do. -/
structure AtRest (i : Nat) (t : System) : Prop where
  up : t.shared.crashed = false
  idle : ∀ g, t.threads g = none
  bridges : ∀ c, ((t.shared.streams i).bridges c).Rests (t.shared.svc.clientAt c)

/-- Only the clients that a stream was answered with have a bridge. -/
theorem AtRest.of_answered (h : System.run u cfg (System.init maxPeers) moves = some t)
    (hup : t.shared.crashed = false) (hidle : ∀ g, t.threads g = none)
    (hbridges : ∀ c ∈ (t.shared.streams i).answered.map (·.clientId),
      ((t.shared.streams i).bridges c).Rests (t.shared.svc.clientAt c)) : AtRest i t := by
  refine ⟨hup, hidle, fun c => ?_⟩
  by_cases hoff : (t.shared.streams i).bridges c = .off
  · exact Or.inl hoff
  · obtain ⟨rj, hrj, rfl⟩ := (Relay.membership_holds h).inv.bridges hoff
    exact hbridges _ (List.mem_map_of_mem hrj)

/-- In a run in which stream `i` hears that its client `c` is dropped, once everything has
come to rest and if its context is live, the client is in a room or a `SessionEnded` was put
on the stream's `sendCh`; and the room is the one registered under its session, if clients
were only added to rooms of the service. -/
theorem nobody_droppedSilently
    (hguard : Machine.Guarded (System.step u cfg) (HearsEnd i c) (System.init maxPeers) moves)
    (h : System.run u cfg (System.init maxPeers) moves = some t) (hrest : AtRest i t)
    (hjoined : (t.shared.streams i).Has c) (hlive : (t.shared.streams i).cancelled = false) :
    ((∃ r, c ∈ (t.shared.svc.roomAt r).clients) ∨ (t.shared.streams i).SentEnd) ∧
    (Machine.Guarded (System.step u cfg) (ServiceGuard AddsToRegistered) (System.init maxPeers)
      moves → (∃ r, t.shared.svc.getRoomByID (t.shared.svc.clientAt c).sessionId = some r ∧
        c ∈ (t.shared.svc.roomAt r).clients) ∨ (t.shared.streams i).SentEnd) := by
  obtain ⟨q, hq, hs⟩ := farewell_run hguard h
  have hs := hs (panicked_of_crashed hrest.up)
  have hmembers := Relay.membership_holds h
  have hsaid : (t.shared.streams i).Parted ∨ EndsAhead i t q → (t.shared.streams i).SentEnd := by
    rintro ((hcancelled | hsent) | ⟨g, hentered | hnext⟩)
    · simp [hlive] at hcancelled
    · exact hsent
    · rw [hq.resting (hrest.idle g)] at hentered
      simp at hentered
    · simp [System.next?_of_none (hrest.idle g)] at hnext
  have hcreator : (t.shared.svc.clientAt c).creator = .send i := by
    obtain ⟨rj, hrj, rfl⟩ := hjoined
    exact (hmembers.inv.answered hrj).creator
  have hkept : (∃ r, c ∈ (t.shared.svc.roomAt r).clients) ∨ (t.shared.streams i).SentEnd := by
    rcases hs.kept hcreator with hroom | hparted | ⟨hclosed, hon | hstarts⟩
    · exact Or.inl hroom
    · exact Or.inr (hsaid hparted)
    · rcases hrest.bridges c with hoff | hended | ⟨-, -, hopen⟩
      · exact absurd hoff hon
      · exact Or.inr (hsaid (hs.ended hended))
      · simp [hopen] at hclosed
    · rw [startsBridge_iff, System.next?_of_none (hrest.idle _)] at hstarts
      simp at hstarts
  refine ⟨hkept, fun hadds => hkept.imp_left ?_⟩
  rintro ⟨r, hc⟩
  exact ⟨r, (noOrphans_run hadds h).live hc, hc⟩

/-- The owner of `s1` joins on stream 0. -/
def ownerJoins : List Move :=
  .launch (.send 0 { action := some (.join { sessionId := "s1", isOwner := true }) }) ::
    List.replicate 20 (.run (.send 0) 0)

/-- It leaves, and there is no other tab of its browser. -/
def ownerLeaves : List Move :=
  .launch (.send 0 { action := some (.leave ⟨"bye"⟩) }) :: List.replicate 15 (.run (.send 0) 0)

/-- A second stream joins before, and its bridge passes on what comes. -/
def joinAndHear : List Move :=
  List.flatten [
    ownerJoins,
    .launch (.send 1 { action := some (.join { sessionId := "s1" }) }) ::
      List.replicate 21 (.run (.send 1) 0),
    ownerLeaves,
    List.replicate 3 (.launch (.bridge 1 "uuuu" .chan))]

/-- Its client is in no room any more, and it was told so. -/
theorem nobody_droppedSilently_joinAndHear : ∃ t,
    System.run .unary (fun _ => {}) (System.init 10) joinAndHear = some t ∧ AtRest 1 t ∧
    (t.shared.streams 1).Has "uuuu" ∧ (t.shared.streams 1).cancelled = false ∧
    (∀ r, "uuuu" ∉ (t.shared.svc.roomAt r).clients) ∧ (t.shared.streams 1).SentEnd := by
  have hrun : (Machine.execIf (System.step .unary fun _ => {}) (HearsEnd 1 "uuuu")
      (System.init 10) joinAndHear).any (fun t =>
        t.shared.crashed = false ∧
        (startedBy joinAndHear).all (fun g => (t.threads g).isNone) = true ∧
        (t.shared.streams 1).answered.map (·.clientId) = ["uuuu"] ∧
        ((t.shared.streams 1).bridges "uuuu").Rests (t.shared.svc.clientAt "uuuu") ∧
        (t.shared.streams 1).cancelled = false ∧ t.shared.svc.nextRoom = 1 ∧
        (t.shared.svc.roomAt 0).clients = []) = true := by
    decide +kernel
  obtain ⟨t, ht, hstate⟩ := (Option.any_eq_true _ _).mp hrun
  obtain ⟨hguard, ht⟩ := Machine.execIf_eq_some ht
  obtain ⟨hup, hidle, hanswered, hbridge, hlive, hrooms, hempty⟩ := of_decide_eq_true hstate
  have hrest : AtRest 1 t :=
    .of_answered ht hup (idle_of_started ht hidle) (by simpa [hanswered] using hbridge)
  have hjoined : (t.shared.streams 1).Has "uuuu" := by
    have hmem : "uuuu" ∈ (t.shared.streams 1).answered.map (·.clientId) := by simp [hanswered]
    exact List.mem_map.mp hmem
  have hout : ∀ r, "uuuu" ∉ (t.shared.svc.roomAt r).clients := by
    intro r hc
    have hr := ((Relay.membership_holds ht).inv.svc.confined hc).1
    rw [hrooms, Nat.lt_one_iff] at hr
    simp [hr, hempty] at hc
  refine ⟨t, ht, hrest, hjoined, hlive, hout, ?_⟩
  exact (nobody_droppedSilently hguard ht hrest hjoined hlive).1.resolve_left
    fun ⟨r, hc⟩ => hout r hc

/-- The second stream has its client in the room when the owner leaves, and has not looked
for it yet. -/
def ownerLeavesDuringJoin : List Move :=
  List.flatten [
    ownerJoins,
    .launch (.send 1 { action := some (.join { sessionId := "s1" }) }) ::
      List.replicate 16 (.run (.send 1) 0),
    ownerLeaves,
    List.replicate 3 (.run (.send 1) 0)]

/-- It is sent its `RoomJoined` and nothing else: its client is in no room, and it was not
told that the session ended. -/
theorem droppedSilently : ∃ t,
    System.run .unary (fun _ => {}) (System.init 10) ownerLeavesDuringJoin = some t ∧ AtRest 1 t ∧
    AnswersJoin (t.shared.streams 1).queued "uuuu" ∧ (t.shared.streams 1).cancelled = false ∧
    (∀ r, "uuuu" ∉ (t.shared.svc.roomAt r).clients) ∧ ¬ (t.shared.streams 1).SentEnd := by
  have hrun : (System.run .unary (fun _ => {}) (System.init 10) ownerLeavesDuringJoin).any (fun t =>
      t.shared.crashed = false ∧
      (startedBy ownerLeavesDuringJoin).all (fun g => (t.threads g).isNone) = true ∧
      (t.shared.streams 1).answered.map (·.clientId) = ["uuuu"] ∧
      ((t.shared.streams 1).bridges "uuuu").Rests (t.shared.svc.clientAt "uuuu") ∧
      (t.shared.streams 1).cancelled = false ∧ t.shared.svc.nextRoom = 1 ∧
      (t.shared.svc.roomAt 0).clients = [] ∧
      (t.shared.streams 1).queued.any (fun item => item.joined? = some "uuuu") = true ∧
      (t.shared.streams 1).queued.all (fun item => !endsSession item.event) = true) = true := by
    decide +kernel
  obtain ⟨t, ht, hstate⟩ := (Option.any_eq_true _ _).mp hrun
  obtain ⟨hup, hidle, hanswered, hbridge, hlive, hrooms, hempty, hjoined, hsilent⟩ :=
    of_decide_eq_true hstate
  refine ⟨t, ht, .of_answered ht hup (idle_of_started ht hidle) ?_, ?_, hlive, fun r hc => ?_, ?_⟩
  · simpa [hanswered] using hbridge
  · obtain ⟨item, hmem, hitem⟩ := List.any_eq_true.mp hjoined
    exact .of_mem hmem (of_decide_eq_true hitem)
  · have hr := ((Relay.membership_holds ht).inv.svc.confined hc).1
    rw [hrooms, Nat.lt_one_iff] at hr
    simp [hr, hempty] at hc
  · rintro ⟨item, hmem, hends⟩
    simpa [hends] using List.all_eq_true.mp hsilent item hmem

end Run

end MassRelay

import MassRelay.Server.Farewell

/-!
# MassRelay.Server.HalfClose

What is put on a stream's `sendCh` around its `CloseSend`.

`CloseSend` takes the client out of its room and closes `sendCh`, but stops nobody: the
bridge still forwards what the room queued for the client before it left, a `Send` still
gets its answer, and the expiry timer still ends the session. Each of them then sends on a
closed channel, which brings the relay down (`backlogAfterClose`).

A goroutine is harmless to a closed `sendCh` when no step it can still come to puts
something there or closes it. That depends on the stream as it is: a `Send` of a stream
without a client is refused, and an `endSession` that is not the first does nothing. It is a
discipline (`silent`), which a goroutine that follows it once keeps following. So it is
enough that everybody is silent when `CloseSend` closes the channel, and that what is
called afterwards is (`ClosesQuietly`): then nothing is put on a closed `sendCh` and none is
closed twice (`sendCh_usedOpen`).
-/

namespace MassRelay

open Threads CollabService

variable {u : UuidSource} {cfg : Nat → StreamConfig} {i : Nat} {g : Goroutine}

/-! ### Silent goroutines -/

/-- A step that puts something on the `sendCh` of stream `i` or closes it, or that belongs to
a join, whose answer is put there. -/
def Op.usesSendCh (i : Nat) : Op → Prop
  | .stream j (.store _) | .stream j (.reply _) | .stream j .closeSendCh => j = i
  | _ => False

/-- No step on the `sendCh` of stream `i`, as long as the rate limiter has a token, the
stream's client is the one it has now or none, and an `endSession` is not the first one if
there was one before. -/
def silent (i : Nat) (st : Stream) : Discipline Op Op.Res Unit where
  may _ o := ¬ o.usesSendCh i
  answer
    | .stream j .allow, allowed => j = i → allowed = true
    | .stream j .readClientId, c => j = i → c = "" ∨ c = st.clientId
    | .stream j .onceEnter, first => j = i → first = true → st.endOnce = .idle
    | _, _ => True
  next _ _ _ := ()

/-- Where a bridge that puts nothing more on `sendCh` can be, unless it takes another event:
it has none in hand, and it does not end the session first. -/
def Bridge.Spent (once : Once) : Bridge → Prop
  | .off | .forwarding | .ended => True
  | .evicting none | .ending => once ≠ .idle
  | .holding _ | .evicting (some _) => False

section Silent

variable {st st' : Stream} {α : Type}

/-- Silence lasts: the `sync.Once` does not go back, and only a join sets the client. -/
theorem silent_mono {p : Proc α} (honce : st'.endOnce = .idle → st.endOnce = .idle)
    (hclient : st'.clientId = "" ∨ st'.clientId = st.clientId) (h : p.Stays (silent i st) ()) :
    p.Stays (silent i st') () := by
  refine Prog.Follows.narrow (D := silent i st) (fun h => h) (fun {o r} h => ?_) rfl h
  cases o with
  | service o => trivial
  | stream j o =>
    cases o with
    | readClientId =>
      intro hj
      rcases h hj with hr | hr
      · exact Or.inl hr
      · exact hclient.imp (hr.trans ·) (hr.trans ·)
    | onceEnter => exact fun hj hr => honce (h hj hr)
    | allow => exact h
    | _ => trivial

theorem leaveAndCleanup_silent (reason : String) :
    (Stream.leaveAndCleanup i reason).Stays (silent i st) () :=
  .of_all (Stream.leaveAndCleanup_all (fun _ => ⟨fun h => h, fun _ => rfl⟩)
    ⟨fun h => h, fun _ => rfl⟩ reason)

/-- An `endSession` that is not the first one does nothing. -/
theorem endSession_silent (reason : String) (h : st.endOnce ≠ .idle) :
    (Stream.endSession i reason).Stays (silent i st) () := by
  refine .op (fun h => h) (fun _ => rfl) fun first hfirst => ?_
  cases first with
  | false => exact .ret _
  | true => exact absurd (hfirst rfl rfl) h

/-- A stream without a client refuses what is not a join, and does not answer. -/
theorem send_silent (c : StreamConfig) {a : CollabAction} (hjoin : Stream.isJoin a.action = false)
    (hclient : st.clientId = "") : (Stream.send c i a).Stays (silent i st) () := by
  have hchecked : (Stream.sendChecked c i a).Stays (silent i st) () := by
    refine .op (fun h => h) (fun _ => rfl) fun joinedAs hjoined => ?_
    have hnone : joinedAs = "" := (hjoined rfl).elim id (·.trans hclient)
    rw [if_neg (by simp [hjoin]), if_pos hnone]
    exact .ret _
  unfold Stream.send
  split
  · exact hchecked
  · split
    · exact hchecked
    · refine .op (fun h => h) (fun _ => rfl) fun allowed hallowed => ?_
      rw [if_pos (hallowed rfl)]
      exact hchecked

end Silent

/-! ### Nothing comes after the close -/

/-- Once it has closed a `sendCh`, a goroutine makes no other step. -/
def closing : Discipline Op Op.Res Bool where
  may closed _ := closed = false
  answer _ _ := True
  next closed
    | .stream _ .closeSendCh, _ => true
    | _, _ => closed

/-- Whatever a launch starts closes a `sendCh` last. -/
theorem start_closing {m : Launch} {p : Proc Unit} (h : Started cfg m g p) :
    p.Follows closing (fun _ _ => True) false := by
  have hservice : ∀ o, closing.may false (.service o) ∧
      ∀ r, closing.next false (.service o) r = false :=
    fun _ => ⟨rfl, fun _ => rfl⟩
  have hstream : ∀ {i} o, o ≠ .closeSendCh → closing.may false (.stream i o) ∧
      ∀ r, closing.next false (.stream i o) r = false := by
    intro i o ho
    refine ⟨rfl, fun r => ?_⟩
    cases o with
    | closeSendCh => exact absurd rfl ho
    | _ => rfl
  have hall : ∀ {p : Proc Unit}, p.Stays closing false →
      p.Follows closing (fun _ _ => True) false :=
    fun h => h.mono fun _ _ _ => trivial
  cases h with
  | send i a =>
    exact hall (.of_all (.bind (Stream.send_all hservice hstream _ a) fun _ => trivial))
  | watchClose i =>
    refine hall (.of_all (.bind (.onlyIf (.perform (hstream _ nofun))) fun _ => ?_))
    exact Stream.leaveAndCleanup_all hservice (hstream .clear nofun) _
  | expire i => exact hall (.of_all (Stream.endSession_all hservice hstream _))
  | closeSend i k =>
    refine Prog.Stays.then (.of_all (Stream.leaveAndCleanup_all hservice (hstream .clear nofun) _))
      fun _ => ⟨rfl, fun _ _ => trivial⟩
  | evict i c choice => exact hall (.of_all (Stream.endSession_all hservice hstream _))
  | direct k call =>
    cases call with
    | handleAction ctx a =>
      exact hall (.of_all (.bind (Call.proc_all hservice _) fun _ => trivial))
    | deliverAppMessage sid c msg =>
      exact hall (.of_all (.bind (Call.proc_all hservice _) fun _ => trivial))

/-! ### What the steps do to `sendCh` -/

section Closed

variable {s s' : Relay} {n : Nat}

/-- Only `CloseSend` closes `sendCh`. -/
theorem StreamOp.apply_closed {j : Nat} {o : StreamOp} {a : o.Res}
    (h : o.apply j n s = some (s', a)) (ho : o = .closeSendCh → j ≠ i) :
    (s'.streams i).sendCh.closed = (s.streams i).sendCh.closed := by
  by_cases hj : i = j
  · subst hj
    cases o with
    | reply e =>
      have hnote : ∀ s₁ : Relay,
          ((s₁.noteReplied i e).streams i).sendCh = (s₁.streams i).sendCh := by
        intro s₁
        unfold Relay.noteReplied
        split
        · rw [Relay.modifyStream_self]
        · rfl
      simp only [StreamOp.apply, Relay.reply] at h
      split at h
      -- the reply is queued or the process goes down: neither closes the channel
      · obtain ⟨s₁, hput, heq⟩ := Option.map_eq_some_iff.mp h
        obtain ⟨rfl, -⟩ := Prod.mk.inj heq
        rw [hnote]
        rcases Relay.put?_cases hput with ⟨-, rfl⟩ | ⟨-, ch, hpush, rfl⟩
        · rfl
        · rw [Relay.modifyStream_self]
          exact (Go.Chan.push?_eq_some hpush).2
      · split at h
        · obtain ⟨rfl, -⟩ := Prod.mk.inj (Option.some.inj h)
          rfl
        · simp at h
    | onceEnter =>
      simp only [StreamOp.apply] at h
      split at h
      · obtain ⟨rfl, -⟩ := Prod.mk.inj (Option.some.inj h)
        rw [Relay.modifyStream_self]
      · simp at h
      · obtain ⟨rfl, -⟩ := Prod.mk.inj (Option.some.inj h)
        rfl
    | closeSendCh => exact absurd rfl (ho rfl)
    | allow | readClientId =>
      obtain ⟨rfl, -⟩ := Prod.mk.inj (Option.some.inj h)
      rfl
    | store _ | goBridge _ | onceExit | closeEnded | clear | stopExpiry =>
      obtain ⟨rfl, -⟩ := Prod.mk.inj (Option.some.inj h)
      rw [Relay.modifyStream_self]
  · rw [(StreamOp.apply_effect h).other hj]

/-- What comes from outside does not close it. -/
theorem Launch.apply_closed {m : Launch} {start : Option (Goroutine × Proc Unit)}
    (h : m.apply cfg s = some (s', start)) :
    (s'.streams i).sendCh.closed = (s.streams i).sendCh.closed := by
  cases m with
  | recv j =>
    obtain ⟨s₁, hrecv, heq⟩ := Option.map_eq_some_iff.mp h
    obtain ⟨rfl, -⟩ := Prod.mk.inj heq
    obtain ⟨⟨item, ch⟩, hpop, rfl⟩ := Option.map_eq_some_iff.mp hrecv
    exact Relay.modifyStream_field (φ := fun st => st.sendCh.closed) (Go.Chan.pop?_eq_some hpop).2 i
  | bridge j c choice =>
    have hset : ∀ (s₁ : Relay) (b : Bridge),
        ((s₁.setBridge j c b).streams i).sendCh.closed = (s₁.streams i).sendCh.closed :=
      fun _ _ => Relay.modifyStream_field (φ := fun st => st.sendCh.closed) rfl i
    have heffect := Relay.bridgeStep_effect h
    generalize (s.streams j).bridges c = b at heffect
    cases heffect with
    | put hput _ =>
      rw [hset]
      rcases Relay.put?_cases hput with ⟨-, rfl⟩ | ⟨-, ch, hpush, rfl⟩
      · rfl
      · exact Relay.modifyStream_field (φ := fun st => st.sendCh.closed)
          (Go.Chan.push?_eq_some hpush).2 i
    | take _ _ | slow _ _ | stop _ | evict => exact hset _ _
  | watchClose j | expire j =>
    simp only [Launch.apply] at h
    split at h
    · obtain ⟨rfl, -⟩ := Prod.mk.inj (Option.some.inj h)
      exact Relay.modifyStream_field (φ := fun st => st.sendCh.closed) rfl i
    · simp at h
  | cancel j =>
    obtain ⟨rfl, -⟩ := Prod.mk.inj (Option.some.inj h)
    exact Relay.modifyStream_field (φ := fun st => st.sendCh.closed) rfl i
  | send _ _ | closeSend _ _ | direct _ _ =>
    obtain ⟨rfl, -⟩ := Prod.mk.inj (Option.some.inj h)
    rfl

/-- A step that puts nothing on `sendCh` and does not close it: its answer is one that silent
goroutines know of, and what they go by stays. -/
theorem StreamOp.apply_silent {o : StreamOp} {a : o.Res} (h : o.apply i n s = some (s', a))
    (ho : ¬ (Op.stream i o).usesSendCh i) (hallow : o = .allow → n % 2 = 0) :
    (silent i (s.streams i)).answer (.stream i o) a ∧
    ((s'.streams i).endOnce = .idle → (s.streams i).endOnce = .idle) ∧
    ((s'.streams i).clientId = "" ∨ (s'.streams i).clientId = (s.streams i).clientId) ∧
    ∀ c, (s'.streams i).bridges c = (s.streams i).bridges c ∨
      (s'.streams i).bridges c = .forwarding := by
  have heffect := StreamOp.apply_effect h
  rw [heffect.endOnce, heffect.clientId, heffect.bridges]
  cases o with
  | store _ | reply _ | closeSendCh => exact absurd rfl ho
  | allow =>
    obtain ⟨-, rfl⟩ := Prod.mk.inj (Option.some.inj h)
    exact ⟨fun _ => decide_eq_true (hallow rfl), id, Or.inr rfl, fun _ => Or.inl rfl⟩
  | readClientId =>
    obtain ⟨-, rfl⟩ := Prod.mk.inj (Option.some.inj h)
    exact ⟨fun _ => Or.inr rfl, id, Or.inr rfl, fun _ => Or.inl rfl⟩
  | goBridge c =>
    refine ⟨trivial, id, Or.inr rfl, fun c' => ?_⟩
    by_cases hc : c' = c
    · exact Or.inr (by simp [StreamOp.bridgesAfter, hc])
    · exact Or.inl (by simp [StreamOp.bridgesAfter, hc])
  | onceEnter =>
    simp only [StreamOp.apply] at h
    split at h
    · rename_i hidle
      exact ⟨fun _ _ => hidle, fun _ => hidle, Or.inr rfl, fun _ => Or.inl rfl⟩
    · simp at h
    · rename_i hdone
      obtain ⟨-, rfl⟩ := Prod.mk.inj (Option.some.inj h)
      refine ⟨fun _ hfirst => by simp at hfirst, ?_, Or.inr rfl, fun _ => Or.inl rfl⟩
      simp [StreamOp.onceAfter, hdone]
  | onceExit => exact ⟨trivial, by simp [StreamOp.onceAfter], Or.inr rfl, fun _ => Or.inl rfl⟩
  | clear => exact ⟨trivial, id, Or.inl rfl, fun _ => Or.inl rfl⟩
  | closeEnded | stopExpiry => exact ⟨trivial, id, Or.inr rfl, fun _ => Or.inl rfl⟩

end Closed

/-! ### Every run -/

/-- The move sends on the `sendCh` of stream `i` or closes it. -/
def UsesSendCh (i : Nat) (t : System) : Move → Prop
  | .run g n =>
    match t.next? g with
    | some (.stream j (.reply _)) => j = i ∧ n % 2 = 0
    | some (.stream j .closeSendCh) => j = i
    | _ => False
  | .launch (.bridge j c .chan) => j = i ∧ ((t.shared.streams i).bridges c).held?.isSome = true
  | .launch _ => False

section Panic

variable {s s' : Relay} {t t' : System}

theorem StreamOp.apply_panicked {j n : Nat} {o : StreamOp} {a : o.Res}
    (h : o.apply j n s = some (s', a)) (hup : s.panicked = false) (hdown : s'.panicked = true) :
    (s.streams j).sendCh.closed = true ∧ ((∃ e, o = .reply e ∧ n % 2 = 0) ∨ o = .closeSendCh) := by
  cases o with
  | reply e =>
    simp only [StreamOp.apply, Relay.reply] at h
    split at h
    · rename_i hn
      obtain ⟨s₁, hput, heq⟩ := Option.map_eq_some_iff.mp h
      obtain ⟨rfl, -⟩ := Prod.mk.inj heq
      rcases Relay.put?_cases hput with ⟨hclosed, -⟩ | ⟨-, ch, -, rfl⟩
      · exact ⟨hclosed, Or.inl ⟨e, rfl, hn⟩⟩
      · unfold Relay.noteReplied at hdown
        split at hdown <;> exact absurd (hup.symm.trans hdown) (by simp)
    · split at h
      · obtain ⟨rfl, -⟩ := Prod.mk.inj (Option.some.inj h)
        exact absurd (hup.symm.trans hdown) (by simp)
      · simp at h
  | closeSendCh =>
    simp only [StreamOp.apply] at h
    split at h
    · exact ⟨‹_›, Or.inr rfl⟩
    · obtain ⟨rfl, -⟩ := Prod.mk.inj (Option.some.inj h)
      exact absurd (hup.symm.trans hdown) (by simp)
  | onceEnter =>
    simp only [StreamOp.apply] at h
    split at h
    · obtain ⟨rfl, -⟩ := Prod.mk.inj (Option.some.inj h)
      exact absurd (hup.symm.trans hdown) (by simp)
    · simp at h
    · obtain ⟨rfl, -⟩ := Prod.mk.inj (Option.some.inj h)
      exact absurd (hup.symm.trans hdown) (by simp)
  | _ =>
    obtain ⟨rfl, -⟩ := Prod.mk.inj (Option.some.inj h)
    exact absurd (hup.symm.trans hdown) (by simp)

theorem Launch.apply_panicked {m : Launch} {start : Option (Goroutine × Proc Unit)}
    (h : m.apply cfg s = some (s', start)) (hup : s.panicked = false)
    (hdown : s'.panicked = true) :
    ∃ i c, (s.streams i).sendCh.closed = true ∧ m = .bridge i c .chan ∧
      ((s.streams i).bridges c).held?.isSome = true := by
  have hsame : s'.panicked = s.panicked → ∃ i c, (s.streams i).sendCh.closed = true ∧
      m = .bridge i c .chan ∧ ((s.streams i).bridges c).held?.isSome = true :=
    fun hp => absurd (hup.symm.trans (hp.symm.trans hdown)) (by simp)
  cases m with
  | recv j =>
    obtain ⟨s₁, hrecv, heq⟩ := Option.map_eq_some_iff.mp h
    obtain ⟨rfl, -⟩ := Prod.mk.inj heq
    obtain ⟨⟨item, ch⟩, -, rfl⟩ := Option.map_eq_some_iff.mp hrecv
    exact hsame rfl
  | bridge j c choice =>
    by_cases hchoice : choice = .chan
    · subst hchoice
      have heffect := Relay.bridgeStep_effect h
      generalize hb : (s.streams j).bridges c = b at heffect
      cases heffect with
      | put hput hheld =>
        rcases Relay.put?_cases hput with ⟨hclosed, -⟩ | ⟨-, ch, -, rfl⟩
        · refine ⟨j, c, hclosed, rfl, ?_⟩
          rcases hheld with ⟨rfl, -⟩ | ⟨rfl, -⟩ <;> simp [hb, Bridge.held?]
        · exact hsame rfl
      | take _ _ | slow _ _ | stop _ | evict => exact hsame rfl
    · obtain ⟨b', rfl⟩ := Relay.bridgeStep_of_ne_chan hchoice h
      exact hsame rfl
  | watchClose j | expire j =>
    simp only [Launch.apply] at h
    split at h
    · obtain ⟨rfl, -⟩ := Prod.mk.inj (Option.some.inj h)
      exact hsame rfl
    · simp at h
  | send _ _ | cancel _ | closeSend _ _ | direct _ _ =>
    obtain ⟨rfl, -⟩ := Prod.mk.inj (Option.some.inj h)
    exact hsame rfl

/-- A stream brings the relay down exactly by using a `sendCh` that is closed. -/
theorem panicked_of_move {m : Move} (h : System.step u cfg t m = some t')
    (hup : t.shared.panicked = false) (hdown : t'.shared.panicked = true) :
    ∃ i, UsesSendCh i t m ∧ (t.shared.streams i).sendCh.closed = true := by
  cases m with
  | run g n =>
    obtain ⟨o, k, s, a, hg, hx, rfl⟩ := step_run h
    have hnext := System.next?_of_op hg
    cases o with
    | service o =>
      rw [(Op.exec_service hx).2.2] at hdown
      exact absurd (hup.symm.trans hdown) (by simp)
    | stream j o =>
      obtain ⟨hclosed, huses⟩ := StreamOp.apply_panicked (Op.exec_stream hx).2 hup hdown
      refine ⟨j, ?_, hclosed⟩
      rcases huses with ⟨e, rfl, hn⟩ | rfl
      · simp only [UsesSendCh, hnext]
        exact ⟨trivial, hn⟩
      · simp only [UsesSendCh, hnext]
  | launch m =>
    have hbridge : ∀ {s start}, m.launch cfg t.shared = some (s, start) → s.panicked = true →
        ∃ i, UsesSendCh i t (.launch m) ∧ (t.shared.streams i).sendCh.closed = true := by
      intro s start hl hdown
      obtain ⟨i, c, hclosed, rfl, hheld⟩ :=
        Launch.apply_panicked (Launch.launch_eq_some hl).2 hup hdown
      exact ⟨i, ⟨rfl, hheld⟩, hclosed⟩
    rcases step_launch h with ⟨s, hl, rfl⟩ | ⟨s, g, p, hl, -, rfl⟩
    · exact hbridge hl hdown
    · exact hbridge hl hdown

end Panic

/-- The other goroutines of stream `i` are silent, and its bridges are spent. -/
structure EveryoneSilent (i : Nat) (g : Goroutine) (t : System) : Prop where
  others : ∀ {g' p}, g' ≠ g → g'.stream? = some i → t.threads g' = some p →
    p.Stays (silent i (t.shared.streams i)) ()
  bridges : ∀ c, ((t.shared.streams i).bridges c).Spent (t.shared.streams i).endOnce

/-- `CloseSend` closes the `sendCh` of stream `i` only when `ok` says so. From then on it is
not called again, a `Send` is no join and finds no client and a token of the rate limiter, the
expiry timer and the slow flag find the session ended, and the bridges find nothing queued. -/
def ClosesWhen (i : Nat) (ok : Goroutine → System → Prop) (t : System) : Move → Prop
  | .run g n =>
    match t.next? g with
    | some (.stream j .closeSendCh) => j = i → ok g t
    | some (.stream j .allow) => j = i → (t.shared.streams i).sendCh.closed = true → n % 2 = 0
    | _ => True
  | .launch (.closeSend j _) => j = i → (t.shared.streams i).sendCh.closed = false
  | .launch (.send j a) => j = i → (t.shared.streams i).sendCh.closed = true →
      Stream.isJoin a.action = false ∧ (t.shared.streams i).clientId = ""
  | .launch (.expire j) | .launch (.bridge j _ .slow) =>
    j = i → (t.shared.streams i).sendCh.closed = true → (t.shared.streams i).endOnce ≠ .idle
  | .launch (.bridge j c .chan) => j = i → (t.shared.streams i).sendCh.closed = true →
      (t.shared.streams i).bridges c ∈ [.forwarding, .evicting none] →
      (t.shared.svc.clientAt c).sendCh.buf = []
  | .launch _ => True

instance (i : Nat) (ok : Goroutine → System → Prop) [∀ g t, Decidable (ok g t)] (t : System) :
    ∀ m : Move, Decidable (ClosesWhen i ok t m)
  | .run g n => by
    have hdec : ∀ next : Option Op, Decidable (match next with
        | some (.stream j .closeSendCh) => j = i → ok g t
        | some (.stream j .allow) => j = i → (t.shared.streams i).sendCh.closed = true → n % 2 = 0
        | _ => True) := fun next => by split <;> infer_instance
    exact hdec (t.next? g)
  | .launch l => by
    cases l with
    | bridge j c choice => cases choice <;> (unfold ClosesWhen; infer_instance)
    | _ => unfold ClosesWhen; infer_instance

theorem ClosesWhen.imp {ok ok' : Goroutine → System → Prop} {t : System} {m : Move}
    (h : ∀ g, ok g t → ok' g t) (hm : ClosesWhen i ok t m) : ClosesWhen i ok' t m := by
  cases m with
  | run g n =>
    simp only [ClosesWhen] at hm ⊢
    split
    · rename_i hnext
      simp only [hnext] at hm
      exact fun hj => h g (hm hj)
    · rename_i hnext
      simp only [hnext] at hm
      exact hm
    · trivial
  | launch m =>
    cases m with
    | bridge j c choice => cases choice <;> exact hm
    | _ => exact hm

/-- `CloseSend` closes the `sendCh` of stream `i` only when everyone is silent, and nobody
comes to use it afterwards. -/
def ClosesQuietly (i : Nat) : System → Move → Prop := ClosesWhen i (EveryoneSilent i)

/-- Everyone is silent on a stream whose `sendCh` is closed, and nobody does anything after
closing one. -/
structure HalfClosed (i : Nat) (t : System) : Prop where
  closesLast : ∀ {g p}, t.threads g = some p → p.Follows closing (fun _ _ => True) false
  quiet : ∀ {g p}, (t.shared.streams i).sendCh.closed = true → g.stream? = some i →
    t.threads g = some p → p.Stays (silent i (t.shared.streams i)) ()
  spent : (t.shared.streams i).sendCh.closed = true → ∀ c,
    ((t.shared.streams i).bridges c).Spent (t.shared.streams i).endOnce

theorem Bridge.Spent.mono {once once' : Once} {b : Bridge} (honce : once' = .idle → once = .idle)
    (h : b.Spent once) : b.Spent once' := by
  cases b with
  | off | forwarding | ended => trivial
  | holding q => exact h
  | ending => exact fun hidle => h (honce hidle)
  | evicting held =>
    cases held with
    | none => exact fun hidle => h (honce hidle)
    | some q => exact h

section Step

variable {t t' : System} {s : Relay} {n : Nat}

/-- What is left of a program after a step that closes no `sendCh`. -/
theorem closing_left {o : Op} {k : o.Res → Proc Unit} {p : Proc Unit} {a : o.Res}
    (h : (Prog.op o k).Follows closing (fun _ _ => True) false) (hp : left (k a) = some p) :
    p.Follows closing (fun _ _ => True) false ∧ ∀ j, o ≠ .stream j .closeSendCh := by
  obtain ⟨hk, o', k', rfl⟩ := left_eq_some hp
  have hfollows := h.2 a trivial
  rw [hk] at hfollows
  have hopen : closing.next false o a = false := hfollows.1
  refine ⟨hopen ▸ hfollows, ?_⟩
  rintro j rfl
  simp [closing] at hopen

/-- A goroutine made a step. -/
theorem HalfClosed.update {o : Op} {k : o.Res → Proc Unit} {a : o.Res} (hs : HalfClosed i t)
    (hg : t.threads g = some (.op o k))
    (hsilent : ∀ {p}, (s.streams i).sendCh.closed = true → g.stream? = some i →
      left (k a) = some p → p.Stays (silent i (s.streams i)) ())
    (hothers : ∀ {g' p}, (s.streams i).sendCh.closed = true → g' ≠ g → g'.stream? = some i →
      t.threads g' = some p → p.Stays (silent i (s.streams i)) ())
    (hspent : (s.streams i).sendCh.closed = true → ∀ c,
      ((s.streams i).bridges c).Spent (s.streams i).endOnce) :
    HalfClosed i ⟨s, Function.update t.threads g (left (k a))⟩ := by
  refine ⟨fun {g' p} hp => ?_, fun {g' p} hclosed hstream hp => ?_, hspent⟩
  · dsimp only at hp
    by_cases hne : g' = g
    · subst hne
      rw [Function.update_self] at hp
      exact (closing_left (hs.closesLast hg) hp).1
    · rw [Function.update_of_ne hne] at hp
      exact hs.closesLast hp
  · dsimp only at hp
    by_cases hne : g' = g
    · subst hne
      rw [Function.update_self] at hp
      exact hsilent hclosed hstream hp
    · rw [Function.update_of_ne hne] at hp
      exact hothers hclosed hne hstream hp

/-- What is left of a silent program after a step. -/
theorem silent_left {st : Stream} {o : Op} {k : o.Res → Proc Unit} {p : Proc Unit} {a : o.Res}
    (h : (Prog.op o k).Stays (silent i st) ()) (ha : (silent i st).answer o a)
    (hp : left (k a) = some p) : p.Stays (silent i st) () := by
  obtain ⟨rfl, -⟩ := left_eq_some hp
  exact h.2 a ha

/-- A step of the service. -/
theorem HalfClosed.service {o : ServiceOp} {k : o.Res → Proc Unit} {a : o.Res}
    (hs : HalfClosed i t) (hg : t.threads g = some (.op (.service o) k))
    (hx : (Op.service o).exec u g n t.shared = some (s, a)) :
    HalfClosed i ⟨s, Function.update t.threads g (left (k a))⟩ := by
  have hstreams : s.streams i = t.shared.streams i := by rw [(Op.exec_service hx).2.2]
  refine hs.update hg ?_ ?_ ?_ <;> rw [hstreams]
  · exact fun hclosed hstream hp => silent_left (hs.quiet hclosed hstream hg) trivial hp
  · exact fun hclosed _ hstream hp => hs.quiet hclosed hstream hp
  · exact hs.spent

/-- A step on a stream. -/
theorem HalfClosed.stream {j : Nat} {o : StreamOp} {k : o.Res → Proc Unit} {a : o.Res}
    (hs : HalfClosed i t) (hown : g.stream? = some j) (hm : ClosesQuietly i t (.run g n))
    (hg : t.threads g = some (.op (.stream j o) k)) (happly : o.apply j n t.shared = some (s, a)) :
    HalfClosed i ⟨s, Function.update t.threads g (left (k a))⟩ := by
  have hnext := System.next?_of_op hg
  by_cases hj : i = j
  · subst hj
    by_cases hclose : o = .closeSendCh
    -- the channel is closed now, and everyone is silent
    · subst hclose
      simp only [ClosesQuietly, ClosesWhen, hnext] at hm
      have heffect := StreamOp.apply_effect happly
      have hsilent := hm trivial
      have hsame : (s.streams i).endOnce = (t.shared.streams i).endOnce := heffect.endOnce
      refine hs.update hg ?_ ?_ ?_
      · exact fun _ _ hp => absurd rfl ((closing_left (hs.closesLast hg) hp).2 i)
      · intro g' p _ hne hstream hp
        exact silent_mono (hsame ▸ id) (Or.inr heffect.clientId) (hsilent.others hne hstream hp)
      · intro _ c
        have hbridge : (s.streams i).bridges c = (t.shared.streams i).bridges c := by
          rw [heffect.bridges]
          rfl
        rw [hbridge, hsame]
        exact hsilent.bridges c
    -- any other step leaves the channel as it is, and is silent if it is closed
    · have hclosed := StreamOp.apply_closed (i := i) happly fun h => absurd h hclose
      have hkept := fun hclosed : (t.shared.streams i).sendCh.closed = true => by
        refine StreamOp.apply_silent happly (hs.quiet hclosed hown hg).1 ?_
        rintro rfl
        simp only [ClosesQuietly, ClosesWhen, hnext] at hm
        exact hm trivial hclosed
      rw [← hclosed] at hkept
      refine hs.update hg ?_ ?_ ?_
      · intro p hclosed' hstream hp
        obtain ⟨hanswer, honce, hclient, -⟩ := hkept hclosed'
        refine silent_mono honce hclient ?_
        exact silent_left (hs.quiet (hclosed ▸ hclosed') hstream hg) hanswer hp
      · intro g' p hclosed' _ hstream hp
        obtain ⟨-, honce, hclient, -⟩ := hkept hclosed'
        exact silent_mono honce hclient (hs.quiet (hclosed ▸ hclosed') hstream hp)
      · intro hclosed' c
        obtain ⟨-, honce, -, hbridges⟩ := hkept hclosed'
        rcases hbridges c with hb | hb
        · rw [hb]
          exact (hs.spent (hclosed ▸ hclosed') c).mono honce
        · rw [hb]
          trivial
  · have hstreams := (StreamOp.apply_effect happly).other hj
    refine hs.update hg ?_ ?_ ?_ <;> rw [hstreams]
    · exact fun _ hstream => absurd (Option.some.inj (hstream.symm.trans hown)) hj
    · exact fun hclosed _ hstream hp => hs.quiet hclosed hstream hp
    · exact hs.spent

/-- A spent bridge that takes nothing, and sees its client slow only once the session has
ended, is spent. -/
theorem Relay.bridgeStep_spent {c : String} {b : Bridge} {choice : Choice} {once : Once}
    {s' : Relay} {start : Option (Goroutine × Proc Unit)}
    (h : s.bridgeStep i c b choice = some (s', start)) (hb : b.Spent once)
    (hchan : choice = .chan → b ∈ [.forwarding, .evicting none] →
      (s.svc.clientAt c).sendCh.buf = [])
    (hslow : choice = .slow → once ≠ .idle) : ((s'.streams i).bridges c).Spent once := by
  have hset : ∀ {s₁ : Relay} {b' : Bridge}, b'.Spent once →
      (((s₁.setBridge i c b').streams i).bridges c).Spent once := by
    intro s₁ b' hb'
    simpa [Relay.setBridge] using hb'
  have hnone : (s.svc.clientAt c).sendCh.buf = [] → s.takeFor c = none := by
    intro hbuf
    rw [Relay.takeFor, take?, Go.Chan.pop?_eq_none.mpr hbuf]
    rfl
  unfold Relay.bridgeStep at h
  split at h
  · rw [hnone (hchan rfl (by simp))] at h
    dsimp only at h
    split at h
    · obtain ⟨rfl, -⟩ := Prod.mk.inj (Option.some.inj h)
      exact hset trivial
    · simp at h
  · exact hb.elim
  · split at h
    · obtain ⟨rfl, -⟩ := Prod.mk.inj (Option.some.inj h)
      exact hset (hslow rfl)
    · simp at h
  · exact hb.elim
  · split at h
    · obtain ⟨rfl, -⟩ := Prod.mk.inj (Option.some.inj h)
      exact hset trivial
    · simp at h
  · exact hb.elim
  · rw [hnone (hchan rfl (by simp))] at h
    obtain ⟨rfl, -⟩ := Prod.mk.inj (Option.some.inj h)
    exact hset hb
  · exact hb.elim
  · obtain ⟨rfl, -⟩ := Prod.mk.inj (Option.some.inj h)
    exact hset trivial
  · simp at h

/-- The bridges of a closed stream stay spent over what comes from outside. -/
theorem HalfClosed.launch_spent {m : Launch} {start : Option (Goroutine × Proc Unit)}
    (hs : HalfClosed i t) (hm : ClosesQuietly i t (.launch m))
    (happly : m.apply cfg t.shared = some (s, start))
    (hclosed : (t.shared.streams i).sendCh.closed = true) (c : String) :
    ((s.streams i).bridges c).Spent (t.shared.streams i).endOnce := by
  by_cases hbridge : ∃ choice, m = .bridge i c choice
  · obtain ⟨choice, rfl⟩ := hbridge
    refine Relay.bridgeStep_spent happly (hs.spent hclosed c) ?_ ?_
    · rintro rfl hb
      exact hm rfl hclosed hb
    · rintro rfl
      exact hm rfl hclosed
  · rw [Launch.apply_bridges happly fun choice h => hbridge ⟨choice, h⟩]
    exact hs.spent hclosed c

/-- What is started on a closed stream is silent. -/
theorem HalfClosed.launch_silent {m : Launch} {p : Proc Unit} (hs : HalfClosed i t)
    (hm : ClosesQuietly i t (.launch m)) (happly : m.apply cfg t.shared = some (s, some (g, p)))
    (hclosed : (t.shared.streams i).sendCh.closed = true) (hg : g.stream? = some i) :
    p.Stays (silent i (t.shared.streams i)) () := by
  cases Launch.apply_started happly with
  | send j a =>
    obtain rfl := Option.some.inj hg
    obtain ⟨hjoin, hclient⟩ := hm rfl hclosed
    exact .bind (send_silent _ hjoin hclient) fun _ => .ret _
  | watchClose j =>
    obtain rfl := Option.some.inj hg
    refine .bind (.onlyIf (.perform (fun h => h) fun _ => rfl)) fun _ => ?_
    exact leaveAndCleanup_silent _
  | expire j =>
    obtain rfl := Option.some.inj hg
    exact endSession_silent _ (hm rfl hclosed)
  | closeSend j k =>
    obtain rfl := Option.some.inj hg
    exact absurd hclosed (by simp [hm rfl])
  | evict j c choice =>
    obtain rfl := Option.some.inj hg
    have hspent := hs.spent hclosed c
    have heffect := Relay.bridgeStep_effect happly
    generalize (t.shared.streams j).bridges c = b at heffect hspent
    cases heffect with
    | evict => exact endSession_silent _ hspent
  | direct k call => simp [Goroutine.stream?] at hg

theorem HalfClosed.launch {m : Launch} (hs : HalfClosed i t) (hm : ClosesQuietly i t (.launch m))
    (h : System.step u cfg t (.launch m) = some t') : HalfClosed i t' := by
  have hkept : ∀ {s start}, m.apply cfg t.shared = some (s, start) →
      (s.streams i).sendCh.closed = (t.shared.streams i).sendCh.closed ∧
      (s.streams i).endOnce = (t.shared.streams i).endOnce ∧
      ∀ {p : Proc Unit}, p.Stays (silent i (t.shared.streams i)) () →
        p.Stays (silent i (s.streams i)) () := by
    intro s start happly
    have hkept := Launch.apply_joinsKept happly
    refine ⟨Launch.apply_closed happly, hkept.endOnce i, fun hp => ?_⟩
    exact silent_mono (hkept.endOnce i ▸ id) (Or.inr (hkept.clientId i)) hp
  rcases step_launch h with ⟨s, hl, rfl⟩ | ⟨s, g, p, hl, -, rfl⟩
  · have happly := (Launch.launch_eq_some hl).2
    obtain ⟨hclosed, honce, hsilent⟩ := hkept happly
    refine ⟨hs.closesLast, fun hclosed' hstream hp => ?_, fun hclosed' c => ?_⟩
    · exact hsilent (hs.quiet (hclosed ▸ hclosed') hstream hp)
    · rw [honce]
      exact hs.launch_spent hm happly (hclosed ▸ hclosed') c
  · have happly := (Launch.launch_eq_some hl).2
    obtain ⟨hclosed, honce, hsilent⟩ := hkept happly
    refine ⟨fun {g' p'} hp => ?_, fun {g' p'} hclosed' hstream hp => ?_, fun hclosed' c => ?_⟩
    · dsimp only at hp
      -- the goroutine that starts, and those at work already
      by_cases hne : g' = g
      · subst hne
        rw [Function.update_self] at hp
        obtain ⟨rfl, -⟩ := left_eq_some hp
        exact start_closing (Launch.apply_started happly)
      · rw [Function.update_of_ne hne] at hp
        exact hs.closesLast hp
    · dsimp only at hp
      refine hsilent ?_
      by_cases hne : g' = g
      · subst hne
        rw [Function.update_self] at hp
        obtain ⟨rfl, -⟩ := left_eq_some hp
        exact hs.launch_silent hm happly (hclosed ▸ hclosed') hstream
      · rw [Function.update_of_ne hne] at hp
        exact hs.quiet (hclosed ▸ hclosed') hstream hp
    · dsimp only
      rw [honce]
      exact hs.launch_spent hm happly (hclosed ▸ hclosed') c

theorem HalfClosed.move {m : Move} (hs : HalfClosed i t)
    (hmembers : Holds (Op.exec u) (Relay.membership u cfg) t) (hm : ClosesQuietly i t m)
    (h : System.step u cfg t m = some t') : HalfClosed i t' := by
  cases m with
  | launch m => exact hs.launch hm h
  | run g n =>
    obtain ⟨o, k, s, a, hg, hx, rfl⟩ := step_run h
    cases o with
    | service o => exact hs.service hg hx
    | stream j o =>
      have hreq := hmembers.req Relay.membership_sound hg
      exact hs.stream hreq.1 hm hg (Op.exec_stream hx).2

/-- On a half-closed stream a move that uses `sendCh` finds it open. -/
theorem HalfClosed.opened {m : Move} (hs : HalfClosed i t)
    (hmembers : Holds (Op.exec u) (Relay.membership u cfg) t) (huses : UsesSendCh i t m) :
    (t.shared.streams i).sendCh.closed = false := by
  refine Bool.eq_false_of_not_eq_true fun hclosed => ?_
  -- no goroutine of a half-closed stream has a step left that uses its `sendCh`
  have hsilent : ∀ {g : Goroutine} {o : StreamOp}, t.next? g = some (.stream i o) →
      ¬ (Op.stream i o).usesSendCh i := by
    intro g o hnext
    obtain ⟨p, hp, hop⟩ := Option.bind_eq_some_iff.mp hnext
    obtain ⟨⟨o', k, rfl⟩, -⟩ := hmembers.running hp
    obtain rfl := Option.some.inj hop
    have hreq := hmembers.req Relay.membership_sound hp
    exact (hs.quiet hclosed hreq.1 hp).1
  cases m with
  | run g n =>
    simp only [UsesSendCh] at huses
    split at huses
    · rename_i j e hnext
      obtain ⟨rfl, -⟩ := huses
      exact hsilent hnext rfl
    · rename_i j hnext
      obtain rfl := huses
      exact hsilent hnext rfl
    · exact huses
  | launch m =>
    cases m with
    | bridge j c choice =>
      cases choice with
      | chan =>
        have hspent := hs.spent hclosed c
        have hheld := huses.2
        generalize (t.shared.streams i).bridges c = b at hheld hspent
        cases b with
        | holding q => exact hspent
        | evicting held =>
          cases held with
          | none => simp [Bridge.held?] at hheld
          | some q => exact hspent
        | off | forwarding | ending | ended => simp [Bridge.held?] at hheld
      | slow | done => exact huses
    | _ => exact huses

end Step

section Run

variable {maxPeers : Int} {moves : List Move} {t : System}

theorem HalfClosed.init (maxPeers : Int) : HalfClosed i (System.init maxPeers) :=
  ⟨fun hp => by simp [System.init] at hp, fun hclosed => by simp [System.init] at hclosed,
    fun hclosed => by simp [System.init] at hclosed⟩

/-- In a run in which stream `i` is closed quietly, no move sends on its `sendCh` or closes it
once it is closed. -/
theorem sendCh_usedOpen
    (hguard : Machine.Guarded (System.step u cfg) (ClosesQuietly i) (System.init maxPeers) moves) :
    Machine.Guarded (System.step u cfg) (fun t m => UsesSendCh i t m →
      (t.shared.streams i).sendCh.closed = false) (System.init maxPeers) moves := by
  refine hguard.of_invariant (I := fun t => Holds (Op.exec u) (Relay.membership u cfg) t ∧
    HalfClosed i t) ?_ ?_ ⟨Relay.membership_init maxPeers, .init maxPeers⟩
  · rintro t m t' ⟨hmembers, hs⟩ hm hmove
    exact ⟨hmembers.step Relay.membership_sound Relay.membership_ok hmove,
      hs.move hmembers hm hmove⟩
  · rintro t m ⟨hmembers, hs⟩ _ huses
    exact hs.opened hmembers huses

/-- A stream joins `s1` and closes its side, when nothing else is under way. What it sends
after that is refused. -/
def joinAndHalfClose : List Move :=
  List.flatten [
    joinS1Stream,
    .launch (.closeSend 0 0) :: List.replicate 12 (.run (.closeSend 0 0) 0),
    [.launch (.send 0 { action := some .sceneInitRequest }), .run (.send 0) 0, .launch (.recv 0)]]

/-- The run closes `sendCh`, and every move of it that uses the channel finds it open. -/
theorem sendCh_usedOpen_joinAndHalfClose :
    (∃ t, System.run .unary (fun _ => {}) (System.init 10) joinAndHalfClose = some t ∧
      (t.shared.streams 0).sendCh.closed = true ∧ (t.shared.streams 0).returned.length = 1) ∧
    Machine.Guarded (System.step .unary fun _ => {}) (fun t m => UsesSendCh 0 t m →
      (t.shared.streams 0).sendCh.closed = false) (System.init 10) joinAndHalfClose := by
  have hrun : (Machine.execIf (System.step .unary fun _ => {}) (ClosesWhen 0 fun g t =>
      g = .closeSend 0 0 ∧ (t.threads (.send 0)).isNone = true ∧
      (t.shared.streams 0).bridges "u" = .forwarding ∧
      (t.shared.streams 0).answered.map (·.clientId) = ["u"]) (System.init 10)
      joinAndHalfClose).any (fun t => (t.shared.streams 0).sendCh.closed = true ∧
        (t.shared.streams 0).returned.length = 1) = true := by
    decide +kernel
  obtain ⟨t, ht, hstate⟩ := (Option.any_eq_true _ _).mp hrun
  obtain ⟨hcloses, ht⟩ := Machine.execIf_eq_some ht
  refine ⟨⟨t, ht, of_decide_eq_true hstate⟩, sendCh_usedOpen ?_⟩
  -- nothing else of the stream is ever started, and no other client has a bridge
  have hothers : Machine.Guarded (System.step .unary fun _ => {}) (fun t _ => ∀ g,
      g ∉ startedBy joinAndHalfClose → t.threads g = none) (System.init 10) joinAndHalfClose := by
    refine (never_started (P := fun g => g ∉ startedBy joinAndHalfClose) ?_ fun _ _ => rfl).1
    exact fun m hm g p hg hstarted => hg (mem_startedBy hm hstarted)
  have hmembers : Machine.Guarded (System.step .unary fun _ => {}) (fun t _ =>
      Relay.Members .unary (fun _ => {}) t.shared) (System.init 10) joinAndHalfClose :=
    Relay.membership_guarded.of_invariant
      (fun _ _ _ ht hok h => ht.step Relay.membership_sound hok h)
      (fun _ _ ht _ => ht.inv) (Relay.membership_init 10)
  refine ((hcloses.and hothers).and hmembers).imp fun t m h => h.1.1.imp fun g hok => ?_
  obtain ⟨rfl, hsend, hbridge, hanswered⟩ := hok
  refine ⟨fun {g p} hne _ hp => ?_, fun c => ?_⟩
  · by_cases hg : g ∈ [Goroutine.send 0, .closeSend 0 0, .send 0]
    · obtain rfl : g = .send 0 := by simpa [hne] using hg
      simp [hp] at hsend
    · simp [h.1.2 g hg] at hp
  · by_cases hc : c = "u"
    · rw [hc, hbridge]
      trivial
    · rw [h.2.bridges_off (by simp [hanswered, hc])]
      trivial

/-- Two streams join `s1`, and the first one closes its side before its bridge has passed on
that the other one joined. -/
def backlogAtClose : List Move :=
  List.flatten [
    joinS1Stream,
    .launch (.send 1 { action := some (.join { sessionId := "s1" }) }) ::
      List.replicate 21 (.run (.send 1) 0),
    .launch (.closeSend 0 0) :: List.replicate 13 (.run (.closeSend 0 0) 0),
    [.launch (.bridge 0 "u" .chan)]]

/-- The bridge then sends on the closed channel, and the relay is down. -/
theorem backlogAfterClose : ∃ t t',
    System.run .unary (fun _ => {}) (System.init 10) backlogAtClose = some t ∧
    UsesSendCh 0 t (.launch (.bridge 0 "u" .chan)) ∧ (t.shared.streams 0).sendCh.closed = true ∧
    System.step .unary (fun _ => {}) t (.launch (.bridge 0 "u" .chan)) = some t' ∧
    t'.shared.panicked = true := by
  have hrun : (System.run .unary (fun _ => {}) (System.init 10) backlogAtClose).any (fun t =>
      ((t.shared.streams 0).bridges "u").held?.isSome = true ∧
      (t.shared.streams 0).sendCh.closed = true ∧
      (System.step .unary (fun _ => {}) t (.launch (.bridge 0 "u" .chan))).any
        (·.shared.panicked) = true) = true := by
    decide +kernel
  obtain ⟨t, ht, hstate⟩ := (Option.any_eq_true _ _).mp hrun
  obtain ⟨hheld, hclosed, hstep⟩ := of_decide_eq_true hstate
  obtain ⟨t', ht', hdown⟩ := (Option.any_eq_true _ _).mp hstep
  exact ⟨t, t', ht, ⟨rfl, hheld⟩, hclosed, ht', hdown⟩

/-- In a run in which every stream is closed quietly, none of them brings the relay down. -/
theorem relay_staysUp
    (hguard : Machine.Guarded (System.step u cfg) (fun t m => ∀ i, ClosesQuietly i t m)
      (System.init maxPeers) moves)
    (h : System.run u cfg (System.init maxPeers) moves = some t) : t.shared.panicked = false := by
  refine (Relay.membership_sound.invariant (I := fun t => (∀ i, HalfClosed i t) ∧
    t.shared.panicked = false) (fun _ => Relay.membership_ok) ?_ (Relay.membership_init maxPeers)
    ⟨fun i => .init maxPeers, rfl⟩ hguard h).2.2
  rintro t m t' hmembers hm ⟨hs, hup⟩ hmove
  refine ⟨fun i => (hs i).move hmembers (hm i) hmove, ?_⟩
  refine Bool.eq_false_of_not_eq_true fun hdown => ?_
  obtain ⟨i, huses, hclosed⟩ := panicked_of_move hmove hup hdown
  exact absurd hclosed (by simp [(hs i).opened hmembers huses])

end Run

end MassRelay

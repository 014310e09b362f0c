import MassRelay.Lib.Progress
import MassRelay.Server.Cleanup
import MassRelay.Server.Farewell
import MassRelay.Server.Locking

/-!
# MassRelay.Server.Progress

The relay comes to rest.

Left to itself, with no new call and no new connection, but with receivers that go on
receiving, the relay makes finitely many moves, and it stops only once every goroutine has
returned, every stream is drained, and every bridge that is still there waits for an event
(`relay_settles`). So its locks, its channels and the `sync.Once` of a stream, whoever holds
them when, make no deadlock and no livelock. Where receivers stop receiving, only goroutines
of their own streams are held up (`slowReceiver_holdsUpItsOwn`).

The measure is lexicographic: first the tasks, which are what the goroutines have left to
run and the bridges that have not returned, then the events that bridges and receivers have
still to move. Of the tasks a read loop comes before a bridge, which only it starts, and a
bridge before the `endSession` that it may start.
-/

namespace MassRelay

open Threads CollabService Relation Tasks

variable {u : UuidSource} {cfg : Nat → StreamConfig} {t t' : System} {s s' : Relay}
variable {g : Goroutine} {i : Nat} {c : String}

/-- A move that needs nothing new from outside: a goroutine or a bridge goes on, or the event
at the front of a stream is received. -/
def Internal : Move → Prop
  | .run _ _ | .launch (.recv _) | .launch (.bridge ..) => True
  | .launch _ => False

def System.GoesOn (u : UuidSource) (cfg : Nat → StreamConfig) (t t' : System) : Prop :=
  ∃ m, Internal m ∧ System.step u cfg t m = some t'

/-! ### What is left to do -/

def Bridge.live : Bridge → Bool
  | .off | .ended => false
  | _ => true

/-- How many moves a bridge has ahead at most, and its events with the receiver, while `n`
events wait in the queue of its client. -/
def Bridge.ahead (n : Nat) : Bridge → Nat
  | .off | .ending | .ended => 0
  | .forwarding => 3 * n + 2
  | .holding _ => 3 * n + 4
  | .evicting none => 3 * n + 1
  | .evicting (some _) => 3 * n + 3

theorem Bridge.ahead_mono {n n' : Nat} (b : Bridge) (h : n ≤ n') : b.ahead n ≤ b.ahead n' := by
  unfold Bridge.ahead
  split <;> omega

/-- A task: how far it comes before others, and what is left to run of it. -/
abbrev Task := Nat × Proc Unit

def Task.Less : Task → Task → Prop := Prod.Lex (· < ·) Prog.After

theorem Task.less_wf : WellFounded Task.Less :=
  (Prod.lex ⟨_, Nat.lt_wfRel.wf⟩ ⟨_, Prog.after_wf⟩).wf

def Goroutine.task (g : Goroutine) (p : Proc Unit) : Task :=
  match g with
  | .send _ => (2, p)
  | _ => (0, p)

def bridgeTask : Task := (1, .ret ())

theorem Goroutine.task_less {o : Op} {k : o.Res → Proc Unit} (g : Goroutine) (a : o.Res) :
    Task.Less (g.task (k a)) (g.task (.op o k)) := by
  cases g <;> exact .right _ (.op a)

/-- Whoever has something to do: a goroutine, or the bridge of a client on a stream. -/
abbrev Worker := Goroutine ⊕ (Nat × String)

def System.agenda (t : System) : Worker → Option Task
  | .inl g => (t.threads g).map g.task
  | .inr (i, c) => if ((t.shared.streams i).bridges c).live then some bridgeTask else none

def Relay.ahead (s : Relay) : Worker → Nat
  | .inl _ => 0
  | .inr (i, c) => ((s.streams i).bridges c).ahead (s.svc.clientAt c).sendCh.buf.length

/-- Who may have something to do, and the streams that may hold events. -/
structure Bounds where
  workers : Finset Worker := ∅
  streams : Finset Nat := ∅

structure Bounds.Covers (b : Bounds) (t : System) : Prop where
  threads : ∀ g, .inl g ∉ b.workers → t.threads g = none
  bridges : ∀ i c, .inr (i, c) ∉ b.workers → (t.shared.streams i).bridges c = .off
  streams : ∀ i, i ∉ b.streams → (t.shared.streams i).sendCh.buf = []
  within : ∀ i c, .inr (i, c) ∈ b.workers → i ∈ b.streams

def Bounds.events (b : Bounds) (s : Relay) : Nat :=
  ∑ x ∈ b.workers, s.ahead x + ∑ i ∈ b.streams, (s.streams i).sendCh.buf.length

/-- What is left to do in a state that `b` covers. -/
def Bounds.rank (b : Bounds) (t : System) : Multiset Task × Nat :=
  (load b.workers t.agenda, b.events t.shared)

def Rank.Less : Multiset Task × Nat → Multiset Task × Nat → Prop :=
  Prod.Lex (CutExpand Task.Less) (· < ·)

theorem Rank.less_wf : WellFounded Rank.Less :=
  (Prod.lex ⟨_, Task.less_wf.cutExpand⟩ ⟨_, Nat.lt_wfRel.wf⟩).wf

variable {b : Bounds}

theorem Bounds.Covers.running (hb : b.Covers t) {p : Proc Unit} (hg : t.threads g = some p) :
    .inl g ∈ b.workers := by
  by_contra hnot
  simp [hb.threads g hnot] at hg

theorem Bounds.Covers.bridging (hb : b.Covers t) (hc : (t.shared.streams i).bridges c ≠ .off) :
    .inr (i, c) ∈ b.workers := by
  by_contra hnot
  exact hc (hb.bridges i c hnot)

/-- A goroutine comes to have `p` left, and every bridge that runs still does. -/
theorem agenda_run {p : Option (Proc Unit)}
    (h : ∀ i c, ((s.streams i).bridges c).live = ((t.shared.streams i).bridges c).live) :
    System.agenda ⟨s, Function.update t.threads g p⟩ =
      Function.update t.agenda (.inl g) (p.map g.task) := by
  funext x
  rcases x with g' | ⟨i, c⟩
  · by_cases hg : g' = g
    · subst hg
      simp [System.agenda]
    · simp [System.agenda, hg]
  · simp [System.agenda, h]

/-- The bridge of one client comes to `b'`. -/
theorem agenda_bridge {b' : Bridge} (hself : (s.streams i).bridges c = b')
    (h : ∀ {j c'}, i ≠ j ∨ c ≠ c' → (s.streams j).bridges c' = (t.shared.streams j).bridges c') :
    System.agenda ⟨s, t.threads⟩ =
      Function.update t.agenda (.inr (i, c)) (if b'.live then some bridgeTask else none) := by
  funext x
  rcases x with g' | ⟨j, c'⟩
  · simp [System.agenda]
  · by_cases hx : j = i ∧ c' = c
    · obtain ⟨rfl, rfl⟩ := hx
      simp [System.agenda, hself]
    · have hne : i ≠ j ∨ c ≠ c' := by
        by_contra hnot
        simp only [not_or, ne_eq, not_not] at hnot
        exact hx ⟨hnot.1.symm, hnot.2.symm⟩
      have hx' : (Sum.inr (j, c') : Worker) ≠ .inr (i, c) := by
        simpa using hx
      simp [System.agenda, h hne, Function.update_of_ne hx']

/-! ### A goroutine goes on -/

/-- What remains of a program is a smaller task than it was. -/
theorem left_less {o : Op} {k : o.Res → Proc Unit} {a : o.Res} :
    ∀ b ∈ (left (k a)).map g.task, Task.Less b (g.task (.op o k)) := by
  intro b hb
  obtain ⟨p, hp, rfl⟩ := Option.map_eq_some_iff.mp hb
  obtain ⟨rfl, -⟩ := left_eq_some hp
  exact g.task_less a

theorem agenda_running {p : Proc Unit} (hg : t.threads g = some p) :
    t.agenda (.inl g) = some (g.task p) := by
  simp [System.agenda, hg]

theorem Bounds.Covers.service {o : ServiceOp} {k : o.Res → Proc Unit} {n : Nat} {a : o.Res}
    (hb : b.Covers t) (hg : t.threads g = some (.op (.service o) k))
    (hx : (Op.service o).exec u g n t.shared = some (s, a)) :
    b.Covers ⟨s, Function.update t.threads g (left (k a))⟩ ∧
      Rank.Less (b.rank ⟨s, Function.update t.threads g (left (k a))⟩) (b.rank t) := by
  obtain ⟨-, -, heq⟩ := Op.exec_service hx
  have hstreams : s.streams = t.shared.streams := by rw [heq]
  refine ⟨⟨fun g' hg' => ?_, fun i c hic => ?_, fun i hi => ?_, hb.within⟩, ?_⟩
  · have hne : g' ≠ g := by
      rintro rfl
      exact hg' (hb.running hg)
    exact (Function.update_of_ne hne _ _).trans (hb.threads g' hg')
  · dsimp only
    rw [hstreams]
    exact hb.bridges i c hic
  · dsimp only
    rw [hstreams]
    exact hb.streams i hi
  · refine .left _ _ ?_
    rw [agenda_run fun i c => by rw [hstreams]]
    have hcut := load_replace (hb.running hg) (agenda_running hg)
      (left_less (o := .service o) (a := a)) fun c hc => absurd hc (Multiset.notMem_zero c)
    simpa using hcut

/-- The bounds once a goroutine has made a step on stream `i`, which may start a bridge. -/
def Bounds.afterStream (b : Bounds) (i : Nat) : StreamOp → Bounds
  | .goBridge c => ⟨insert (.inr (i, c)) b.workers, insert i b.streams⟩
  | _ => ⟨b.workers, insert i b.streams⟩

theorem Bounds.afterStream_streams (b : Bounds) (i : Nat) (o : StreamOp) :
    (b.afterStream i o).streams = insert i b.streams := by
  cases o <;> rfl

theorem Bounds.mem_afterStream {o : StreamOp} {x : Worker} :
    x ∈ (b.afterStream i o).workers ↔ x ∈ b.workers ∨ ∃ c, o = .goBridge c ∧ x = .inr (i, c) := by
  cases o with
  | goBridge c => simp [Bounds.afterStream, or_comm]
  | _ => simp [Bounds.afterStream]

theorem Bounds.Covers.afterStream {o : StreamOp} {k : o.Res → Proc Unit} {n : Nat} {a : o.Res}
    {q : Option (Proc Unit)} (hb : b.Covers t) (hg : t.threads g = some (.op (.stream i o) k))
    (hx : (Op.stream i o).exec u g n t.shared = some (s, a)) :
    (b.afterStream i o).Covers ⟨s, Function.update t.threads g q⟩ := by
  have heffect := StreamOp.apply_effect (Op.exec_stream hx).2
  have hmem : ∀ {x}, x ∉ (b.afterStream i o).workers → x ∉ b.workers :=
    fun hx h => hx (Bounds.mem_afterStream.mpr (Or.inl h))
  refine ⟨fun g' hg' => ?_, fun j c hjc => ?_, fun j hj => ?_, fun j c hjc => ?_⟩
  · have hne : g' ≠ g := by
      rintro rfl
      exact hmem hg' (hb.running hg)
    exact (Function.update_of_ne hne _ _).trans (hb.threads g' (hmem hg'))
  · by_cases hj : j = i
    · subst hj
      dsimp only
      rw [heffect.bridges]
      cases o with
      | goBridge c' =>
        have hc : c ≠ c' := by
          rintro rfl
          exact hjc (Bounds.mem_afterStream.mpr (Or.inr ⟨c, rfl, rfl⟩))
        exact (Function.update_of_ne hc _ _).trans (hb.bridges j c (hmem hjc))
      | _ => exact hb.bridges j c (hmem hjc)
    · dsimp only
      rw [heffect.other hj]
      exact hb.bridges j c (hmem hjc)
  · rw [Bounds.afterStream_streams, Finset.mem_insert, not_or] at hj
    dsimp only
    rw [heffect.other hj.1]
    exact hb.streams j hj.2
  · rw [Bounds.afterStream_streams]
    rcases Bounds.mem_afterStream.mp hjc with hjc | ⟨c', -, heq⟩
    · exact Finset.mem_insert_of_mem (hb.within j c hjc)
    · obtain ⟨rfl, -⟩ := Prod.mk.inj (Sum.inr.inj heq)
      exact Finset.mem_insert_self _ _

theorem Bounds.Covers.stream {o : StreamOp} {k : o.Res → Proc Unit} {n : Nat} {a : o.Res}
    (hmembers : Holds (Op.exec u) (Relay.membership u cfg) t) (hb : b.Covers t)
    (hg : t.threads g = some (.op (.stream i o) k))
    (hx : (Op.stream i o).exec u g n t.shared = some (s, a)) :
    Rank.Less ((b.afterStream i o).rank ⟨s, Function.update t.threads g (left (k a))⟩)
      (b.rank t) := by
  have heffect := StreamOp.apply_effect (Op.exec_stream hx).2
  have hreq := (hmembers.req Relay.membership_sound hg).2
  have hmem := hb.running hg
  refine .left _ _ ?_
  have hplain : (∀ c, o ≠ .goBridge c) → CutExpand Task.Less
      (load (b.afterStream i o).workers
        (System.agenda ⟨s, Function.update t.threads g (left (k a))⟩))
      (load b.workers t.agenda) := by
    intro ho
    have hlive : ∀ j c, ((s.streams j).bridges c).live = ((t.shared.streams j).bridges c).live := by
      intro j c
      by_cases hj : j = i
      · subst hj
        rw [heffect.bridges]
        cases o with
        | goBridge c' => exact absurd rfl (ho c')
        | _ => rfl
      · rw [heffect.other hj]
    have hworkers : (b.afterStream i o).workers = b.workers := by
      cases o with
      | goBridge c' => exact absurd rfl (ho c')
      | _ => rfl
    rw [hworkers, agenda_run hlive]
    have hcut := load_replace hmem (agenda_running hg)
      (left_less (o := .stream i o) (a := a)) fun c hc => absurd hc (Multiset.notMem_zero c)
    simpa using hcut
  cases o with
  | goBridge c =>
    obtain ⟨rfl, -, hoff⟩ := hreq
    -- the read loop goes on, and the bridge it started is a smaller task
    let t₁ : System := ⟨t.shared, Function.update t.threads (.send i) (left (k a))⟩
    have hagenda : System.agenda ⟨s, t₁.threads⟩ =
        Function.update t₁.agenda (.inr (i, c)) (some bridgeTask) := by
      have hself : (s.streams i).bridges c = .forwarding := by
        rw [heffect.bridges]
        exact Function.update_self ..
      refine agenda_bridge (t := t₁) hself fun {j c'} hne => ?_
      · by_cases hj : j = i
        · subst hj
          rw [heffect.bridges]
          exact Function.update_of_ne (Ne.symm (hne.resolve_left fun h => h rfl)) _ _
        · rw [heffect.other hj]
    have hnone : t₁.agenda (.inr (i, c)) = none := by
      simp [t₁, System.agenda, hoff, Bridge.live]
    show CutExpand Task.Less
      (load (insert (.inr (i, c)) b.workers) (System.agenda ⟨s, t₁.threads⟩)) _
    rw [hagenda, load_insert hnone, agenda_run fun _ _ => rfl]
    refine load_replace hmem (agenda_running hg)
      (left_less (o := .stream i (.goBridge c)) (a := a)) ?_
    intro d hd
    obtain rfl := Option.some.inj (mem_pile.mp hd)
    exact .left _ _ (by decide)
  | _ => exact hplain (by simp)

/-! ### A bridge goes on, or an event is received -/

section Launch

variable {m : Launch} {start : Option (Goroutine × Proc Unit)} {p : Proc Unit}

theorem BridgeEffect.other {b : Bridge} {j : Nat} (h : BridgeEffect s i c b s' start)
    (hj : j ≠ i) : s'.streams j = s.streams j := by
  cases h with
  | put hput _ =>
    rcases Relay.put?_cases hput with ⟨-, rfl⟩ | ⟨-, ch, -, rfl⟩ <;> simp [Relay.setBridge, hj]
  | take _ _ | slow _ _ | stop _ | evict => simp [Relay.setBridge, hj]

theorem BridgeEffect.live {b : Bridge} (h : BridgeEffect s i c b s' start) : b.live = true := by
  cases h with
  | take _ hb => rcases hb with ⟨rfl, -⟩ | ⟨rfl, -⟩ <;> rfl
  | put _ hb => rcases hb with ⟨rfl, -⟩ | ⟨rfl, -⟩ <;> rfl
  | slow _ hb => rcases hb with ⟨rfl, -⟩ | ⟨q, rfl, -⟩ <;> rfl
  | stop hb => rcases hb with ⟨rfl | ⟨q, rfl⟩, -⟩ | ⟨held, rfl, -⟩ <;> rfl
  | evict => rfl

theorem Bridge.ne_off_of_live {b : Bridge} (h : b.live = true) : b ≠ .off := by
  rintro rfl
  simp [Bridge.live] at h

/-- A launch makes nobody else busy. -/
theorem Bounds.Covers.launch (hb : b.Covers t) (h : m.apply cfg t.shared = some (s, start)) :
    b.Covers ⟨s, t.threads⟩ := by
  refine ⟨hb.threads, fun i c hic => ((Launch.apply_joinsKept h).bridges i c).mpr
    (hb.bridges i c hic), fun j hj => ?_, hb.within⟩
  have hempty := hb.streams j hj
  have hsame : (s.streams j).sendCh = (t.shared.streams j).sendCh →
      (s.streams j).sendCh.buf = [] := fun heq => by rw [heq, hempty]
  cases m with
  | recv i =>
    obtain ⟨s₁, hrecv, heq⟩ := Option.map_eq_some_iff.mp h
    obtain ⟨rfl, -⟩ := Prod.mk.inj heq
    obtain ⟨⟨item, ch⟩, hpop, rfl⟩ := Option.map_eq_some_iff.mp hrecv
    have hne : j ≠ i := by
      rintro rfl
      simp [(Go.Chan.pop?_eq_some hpop).1] at hempty
    simpa [hne] using hempty
  | bridge i c choice =>
    have heffect := Relay.bridgeStep_effect h
    have hi := hb.within i c (hb.bridging (Bridge.ne_off_of_live heffect.live))
    have hne : j ≠ i := fun hji => hj (hji ▸ hi)
    dsimp only
    rwa [heffect.other hne]
  | watchClose i | expire i =>
    simp only [Launch.apply] at h
    split at h
    · obtain ⟨rfl, -⟩ := Prod.mk.inj (Option.some.inj h)
      exact hsame (Relay.modifyStream_field (φ := Stream.sendCh) rfl j)
    · simp at h
  | cancel i =>
    obtain ⟨rfl, -⟩ := Prod.mk.inj (Option.some.inj h)
    exact hsame (Relay.modifyStream_field (φ := Stream.sendCh) rfl j)
  | send _ _ | closeSend _ _ | direct _ _ =>
    obtain ⟨rfl, -⟩ := Prod.mk.inj (Option.some.inj h)
    exact hempty

/-- The goroutine that is started is one more who may have something to do. -/
theorem Bounds.Covers.started (hb : b.Covers ⟨s, t.threads⟩) (g : Goroutine) (p : Proc Unit) :
    Bounds.Covers ⟨insert (.inl g) b.workers, b.streams⟩
      ⟨s, Function.update t.threads g (left p)⟩ := by
  refine ⟨fun g' hg' => ?_, fun i c hic => ?_, hb.streams, fun i c hic => ?_⟩
  · rw [Finset.mem_insert, not_or] at hg'
    have hne : g' ≠ g := fun h => hg'.1 (h ▸ rfl)
    exact (Function.update_of_ne hne _ _).trans (hb.threads g' hg'.2)
  · exact hb.bridges i c fun h => hic (Finset.mem_insert_of_mem h)
  · exact hb.within i c ((Finset.mem_insert.mp hic).resolve_left (by simp))

/-- A bridge that has fewer moves ahead than before, counting the events it put on its
stream. -/
theorem Bounds.events_lt (hc : .inr (i, c) ∈ b.workers) (hi : i ∈ b.streams)
    (hbridges : ∀ {j c'}, i ≠ j ∨ c ≠ c' →
      (s'.streams j).bridges c' = (s.streams j).bridges c')
    (hqueues : ∀ c', (s'.svc.clientAt c').sendCh.buf.length ≤
      (s.svc.clientAt c').sendCh.buf.length)
    (hstreams : ∀ {j}, j ≠ i → s'.streams j = s.streams j)
    (hlt : s'.ahead (.inr (i, c)) + (s'.streams i).sendCh.buf.length <
      s.ahead (.inr (i, c)) + (s.streams i).sendCh.buf.length) : b.events s' < b.events s := by
  have hworkers : ∑ x ∈ b.workers.erase (.inr (i, c)), s'.ahead x ≤
      ∑ x ∈ b.workers.erase (.inr (i, c)), s.ahead x := by
    refine Finset.sum_le_sum fun x hx => ?_
    rcases x with g | ⟨j, c'⟩
    · exact le_rfl
    · have hne : i ≠ j ∨ c ≠ c' := by
        by_contra hnot
        simp only [not_or, ne_eq, not_not] at hnot
        exact Finset.ne_of_mem_erase hx (by rw [hnot.1, hnot.2])
      rw [Relay.ahead, Relay.ahead, hbridges hne]
      exact Bridge.ahead_mono _ (hqueues c')
  have hrest : ∑ j ∈ b.streams.erase i, (s'.streams j).sendCh.buf.length =
      ∑ j ∈ b.streams.erase i, (s.streams j).sendCh.buf.length :=
    Finset.sum_congr rfl fun j hj => by rw [hstreams (Finset.ne_of_mem_erase hj)]
  simp only [Bounds.events, ← Finset.add_sum_erase _ _ hc, ← Finset.add_sum_erase _ _ hi, hrest]
  omega

theorem take?_length {svc svc' : CollabService} {q : Queued} (h : svc.take? c = some (q, svc')) :
    (svc.clientAt c).sendCh.buf.length = (svc'.clientAt c).sendCh.buf.length + 1 ∧
      ∀ c', c' ≠ c → svc'.clientAt c' = svc.clientAt c' := by
  obtain ⟨ch, hpop, rfl⟩ := take?_eq_some h
  refine ⟨?_, fun c' hc' => modifyClient_clientAt_of_ne svc _ hc'⟩
  rw [modifyClient_clientAt_self, (Go.Chan.pop?_eq_some hpop).1]
  rfl

/-- Where the bridge is after a step, and what that did to the moves it has ahead; it
returned, or there are fewer of these. -/
theorem BridgeEffect.descends {b : Bridge} (h : BridgeEffect s i c b s' start)
    (hb : (s.streams i).bridges c = b) :
    (s'.streams i).bridges c = .ended ∨
    (start = none ∧ ((s'.streams i).bridges c).live = true ∧
      (∀ c', (s'.svc.clientAt c').sendCh.buf.length ≤ (s.svc.clientAt c').sendCh.buf.length) ∧
      s'.ahead (.inr (i, c)) + (s'.streams i).sendCh.buf.length <
        s.ahead (.inr (i, c)) + (s.streams i).sendCh.buf.length) := by
  cases h with
  | @take _ b' q svc htake hbb =>
    obtain ⟨hlength, hother⟩ := take?_length htake
    refine Or.inr ⟨rfl, ?_, fun c' => ?_, ?_⟩
    · rcases hbb with ⟨-, rfl⟩ | ⟨-, rfl⟩ <;> simp [Relay.setBridge, Bridge.live]
    · by_cases hc : c' = c
      · subst hc
        simp only [Relay.setBridge, Relay.modifyStream_svc]
        omega
      · simp [Relay.setBridge, hother c' hc]
    · rcases hbb with ⟨rfl, rfl⟩ | ⟨rfl, rfl⟩ <;>
        simp only [Relay.ahead, Relay.setBridge, Relay.modifyStream_self, Relay.modifyStream_svc,
          Function.update_self, hb, Bridge.ahead] <;> omega
  | @put _ b' q s₁ hput hbb =>
    have hsvc := Relay.put?_svc hput
    have hlength : (s₁.streams i).sendCh.buf.length ≤ (s.streams i).sendCh.buf.length + 1 := by
      rcases Relay.put?_cases hput with ⟨-, rfl⟩ | ⟨-, ch, hpush, rfl⟩
      · exact Nat.le_succ _
      · simp [(Go.Chan.push?_eq_some hpush).1]
    refine Or.inr ⟨rfl, ?_, fun c' => ?_, ?_⟩
    · rcases hbb with ⟨-, rfl⟩ | ⟨-, rfl⟩ <;> simp [Relay.setBridge, Bridge.live]
    · simp [Relay.setBridge, hsvc]
    · rcases hbb with ⟨rfl, rfl⟩ | ⟨rfl, rfl⟩ <;>
        simp only [Relay.ahead, Relay.setBridge, Relay.modifyStream_self, Relay.modifyStream_svc,
          Function.update_self, hb, hsvc, Bridge.ahead] <;> omega
  | slow _ hbb =>
    refine Or.inr ⟨rfl, ?_, fun c' => le_rfl, ?_⟩
    · rcases hbb with ⟨-, rfl⟩ | ⟨q, -, rfl⟩ <;> simp [Relay.setBridge, Bridge.live]
    · rcases hbb with ⟨rfl, rfl⟩ | ⟨q, rfl, rfl⟩ <;>
        simp only [Relay.ahead, Relay.setBridge, Relay.modifyStream_self, Relay.modifyStream_svc,
          Function.update_self, hb, Bridge.ahead] <;> omega
  | stop hbb =>
    rcases hbb with ⟨-, rfl⟩ | ⟨held, rfl, rfl⟩
    · exact Or.inl (by simp [Relay.setBridge])
    · refine Or.inr ⟨rfl, by simp [Relay.setBridge, Bridge.live], fun c' => le_rfl, ?_⟩
      cases held <;>
        simp only [Relay.ahead, Relay.setBridge, Relay.modifyStream_self, Function.update_self, hb,
          Bridge.ahead] <;> omega
  | evict => exact Or.inl (by simp [Relay.setBridge])

end Launch

/-! ### Every move leaves less to do -/

/-- A receive takes an event off its stream. -/
theorem Bounds.Covers.recv (hb : b.Covers t) (h : t.shared.recv i = some s) :
    Rank.Less (b.rank ⟨s, t.threads⟩) (b.rank t) := by
  obtain ⟨⟨item, ch⟩, hpop, hs⟩ := Option.map_eq_some_iff.mp h
  have hbuf := (Go.Chan.pop?_eq_some hpop).1
  have hi : i ∈ b.streams := by
    by_contra hnot
    simp [hb.streams i hnot] at hbuf
  have hbridges : ∀ j, (s.streams j).bridges = (t.shared.streams j).bridges := by
    subst hs
    exact Relay.modifyStream_field rfl
  have hsvc : s.svc = t.shared.svc := by
    subst hs
    rfl
  have hlength : ∀ j, (s.streams j).sendCh.buf.length ≤ (t.shared.streams j).sendCh.buf.length ∧
      (j = i → (s.streams j).sendCh.buf.length < (t.shared.streams j).sendCh.buf.length) := by
    intro j
    subst hs
    by_cases hj : j = i
    · subst hj
      simp [hbuf]
    · simp [hj]
  have hagenda : System.agenda ⟨s, t.threads⟩ = t.agenda := by
    funext x
    rcases x with g | ⟨j, c⟩
    · rfl
    · simp only [System.agenda, hbridges]
  have hahead : ∀ x, s.ahead x = t.shared.ahead x := by
    rintro (g | ⟨j, c⟩)
    · rfl
    · simp only [Relay.ahead, hbridges, hsvc]
  rw [Bounds.rank, hagenda]
  refine .right _ ?_
  simp only [Bounds.events, hahead]
  exact Nat.add_lt_add_left
    (Finset.sum_lt_sum (fun j _ => (hlength j).1) ⟨i, hi, (hlength i).2 rfl⟩) _

/-- A bridge that returned is a task less, and may leave a smaller one. -/
theorem BridgeEffect.returned {start : Option (Goroutine × Proc Unit)} {a : Option Task}
    (hb : b.Covers t)
    (h : BridgeEffect t.shared i c ((t.shared.streams i).bridges c) s start)
    (hended : (s.streams i).bridges c = .ended) (ha : ∀ d ∈ pile a, Task.Less d bridgeTask) :
    CutExpand Task.Less (load b.workers (System.agenda ⟨s, t.threads⟩) + pile a)
      (load b.workers t.agenda) := by
  rw [agenda_bridge hended fun hne => h.elsewhere (hne.imp Ne.symm Ne.symm)]
  refine load_replace (hb.bridging (Bridge.ne_off_of_live h.live)) ?_ (by simp [Bridge.live]) ha
  simp [System.agenda, h.live]

/-- A bridge goes on, or returns. -/
theorem Bounds.Covers.bridge (hb : b.Covers t)
    (h : BridgeEffect t.shared i c ((t.shared.streams i).bridges c) s none) :
    Rank.Less (b.rank ⟨s, t.threads⟩) (b.rank t) := by
  have helsewhere : ∀ {j c'}, i ≠ j ∨ c ≠ c' →
      (s.streams j).bridges c' = (t.shared.streams j).bridges c' :=
    fun hne => h.elsewhere (hne.imp Ne.symm Ne.symm)
  rcases h.descends rfl with hended | ⟨-, hlive, hqueues, hlt⟩
  · exact .left _ _ (by simpa [pile] using h.returned (a := none) hb hended (by simp [pile]))
  · have hagenda : System.agenda ⟨s, t.threads⟩ = t.agenda := by
      rw [agenda_bridge rfl helsewhere, hlive]
      exact Function.update_eq_self_iff.mpr (by simp [System.agenda, h.live])
    have hc := hb.bridging (Bridge.ne_off_of_live h.live)
    rw [Bounds.rank, hagenda]
    exact .right _ (Bounds.events_lt hc (hb.within i c hc) helsewhere hqueues
      (fun hj => h.other hj) hlt)

/-- A bridge starts the end of its session, and returns. -/
theorem Bounds.Covers.evict {p : Proc Unit} (hb : b.Covers t) (hg : t.threads g = none)
    (h : BridgeEffect t.shared i c ((t.shared.streams i).bridges c) s (some (g, p))) :
    Rank.Less (Bounds.rank ⟨insert (.inl g) b.workers, b.streams⟩
      ⟨s, Function.update t.threads g (left p)⟩) (b.rank t) := by
  rcases h.descends rfl with hended | ⟨hnone, -⟩
  · refine .left _ _ ?_
    have hagenda : System.agenda ⟨s, Function.update t.threads g (left p)⟩ =
        Function.update (System.agenda ⟨s, t.threads⟩) (.inl g) ((left p).map g.task) :=
      agenda_run (t := ⟨s, t.threads⟩) fun _ _ => rfl
    rw [hagenda, load_insert (by simp [System.agenda, hg])]
    refine h.returned hb hended fun a ha => ?_
    obtain ⟨p', -, rfl⟩ := Option.map_eq_some_iff.mp (mem_pile.mp ha)
    obtain ⟨rfl, -⟩ := h.start
    exact .left _ _ (by decide)
  · simp at hnone

/-- A move of the relay itself leads to bounds under which less is left to do. -/
theorem Bounds.Covers.goesOn (hmembers : Holds (Op.exec u) (Relay.membership u cfg) t)
    (hb : b.Covers t) (h : System.GoesOn u cfg t t') :
    ∃ b' : Bounds, b'.Covers t' ∧ Rank.Less (b'.rank t') (b.rank t) := by
  obtain ⟨m, hm, h⟩ := h
  cases m with
  | run g n =>
    obtain ⟨o, k, s, a, hg, hx, rfl⟩ := step_run h
    cases o with
    | service o => exact ⟨b, hb.service hg hx⟩
    | stream i o => exact ⟨_, hb.afterStream hg hx, hb.stream hmembers hg hx⟩
  | launch m =>
    cases m with
    | recv i =>
      rcases step_launch h with ⟨s, hl, rfl⟩ | ⟨s, g, p, hl, -, -⟩
      · have happly := (Launch.launch_eq_some hl).2
        obtain ⟨s₁, hrecv, heq⟩ := Option.map_eq_some_iff.mp happly
        obtain ⟨rfl, -⟩ := Prod.mk.inj heq
        exact ⟨b, hb.launch happly, hb.recv hrecv⟩
      · cases Launch.apply_started (Launch.launch_eq_some hl).2
    | bridge i c choice =>
      rcases step_launch h with ⟨s, hl, rfl⟩ | ⟨s, g, p, hl, hg, rfl⟩
      · have happly := (Launch.launch_eq_some hl).2
        exact ⟨b, hb.launch happly, hb.bridge (Relay.bridgeStep_effect happly)⟩
      · have happly := (Launch.launch_eq_some hl).2
        exact ⟨_, (hb.launch happly).started g p, hb.evict hg (Relay.bridgeStep_effect happly)⟩
    | _ => exact absurd hm (by simp [Internal])

/-- In every run only finitely many have something to do. -/
theorem covers_run {maxPeers : Int} {moves : List Move}
    (h : System.run u cfg (System.init maxPeers) moves = some t) : ∃ b : Bounds, b.Covers t := by
  refine Machine.invariant_guarded (G := fun _ _ => True) (I := fun t => ∃ b : Bounds, b.Covers t)
    ?_ ⟨{}, fun _ _ => rfl, fun _ _ _ => rfl, fun _ _ => rfl, fun _ _ h => by simp at h⟩
    (Machine.guarded_of_forall fun _ _ _ => trivial) h
  rintro t m t' ⟨b, hb⟩ - hmove
  cases m with
  | run g n =>
    obtain ⟨o, k, s, a, hg, hx, rfl⟩ := step_run hmove
    cases o with
    | service o => exact ⟨b, (hb.service hg hx).1⟩
    | stream i o => exact ⟨_, hb.afterStream hg hx⟩
  | launch m =>
    rcases step_launch hmove with ⟨s, hl, rfl⟩ | ⟨s, g, p, hl, -, rfl⟩
    · exact ⟨b, hb.launch (Launch.launch_eq_some hl).2⟩
    · exact ⟨_, (hb.launch (Launch.launch_eq_some hl).2).started g p⟩

/-- The ranks of a state, whose members the bridges know. -/
def Ranked (u : UuidSource) (cfg : Nat → StreamConfig) (t : System)
    (a : Multiset Task × Nat) : Prop :=
  Holds (Op.exec u) (Relay.membership u cfg) t ∧ ∃ b : Bounds, b.Covers t ∧ a = b.rank t

/-- In every state that a run reaches, the relay left to itself makes finitely many moves. -/
theorem relay_descends {maxPeers : Int} {moves : List Move}
    (h : System.run u cfg (System.init maxPeers) moves = some t) :
    Acc (fun t' t => System.GoesOn u cfg t t') t := by
  obtain ⟨b, hb⟩ := covers_run h
  have hranked : Ranked u cfg t (b.rank t) := ⟨Relay.membership_holds h, b, hb, rfl⟩
  refine Machine.acc_of_rank Rank.less_wf (fun {t t' a} hr hgo => ?_) hranked
  obtain ⟨hmembers, b, hb, rfl⟩ := hr
  obtain ⟨b', hb', hless⟩ := hb.goesOn hmembers hgo
  obtain ⟨m, -, hmove⟩ := hgo
  exact ⟨_, hless, hmembers.step Relay.membership_sound Relay.membership_ok hmove, b', hb', rfl⟩

/-! ### Where nobody can go on -/

/-- Only a section under the lock of a room waits, for those who read it. -/
theorem ServiceOp.apply_blocked {svc : CollabService} {n : Nat} {o : ServiceOp}
    (h : o.apply u g n svc = none) :
    (∃ r, (svc.roomAt r).readers ≠ ∅) ∧ delivering o = false ∧ ∀ r, o ≠ .runlock r := by
  have hlock : ∀ {α : Type} {r : RoomRef} {a : CollabService × α}, svc.lock r a = none →
      ∃ r, (svc.roomAt r).readers ≠ ∅ := by
    intro α r a hnone
    refine ⟨r, fun hfree => ?_⟩
    simp [CollabService.lock, hfree] at hnone
  cases o with
  | ownedElsewhere _ _ | setEncrypted _ _ | addClient _ _ _ _ _ | claimRoom _ _ _
  | removeClient _ _ | transferOwner _ _ | closeAllClients _ | setTitle _ _ =>
    exact ⟨hlock h, rfl, by simp⟩
  | _ => simp [ServiceOp.apply] at h

/-- A reply waits for room on its stream, unless the context is done, and `Once.Do` for
whoever came first. -/
theorem StreamOp.apply_blocked {o : StreamOp} (h : ∀ n, o.apply i n s = none) :
    ((s.streams i).sendCh.buf.length = 64 ∧ (s.streams i).cancelled = false) ∨
      (o = .onceEnter ∧ (s.streams i).endOnce = .running) := by
  cases o with
  | reply e =>
    refine Or.inl ⟨?_, ?_⟩
    · have hfull := h 0
      simp only [StreamOp.apply, Relay.reply, Relay.put?] at hfull
      have hbound := (s.streams i).sendCh.bound
      by_contra hroom
      have hlt : (s.streams i).sendCh.buf.length < 64 := by omega
      cases hclosed : (s.streams i).sendCh.closed <;> simp [hclosed, Go.Chan.push?, hlt] at hfull
    · have hlive := h 1
      simpa [StreamOp.apply, Relay.reply] using hlive
  | onceEnter =>
    have honce := h 0
    cases hcase : (s.streams i).endOnce with
    | running => exact Or.inr ⟨rfl, rfl⟩
    | idle | done => simp [StreamOp.apply, hcase] at honce
  | closeSendCh =>
    have hclose := h 0
    simp only [StreamOp.apply] at hclose
    split at hclose <;> simp at hclose
  | _ => simp [StreamOp.apply] at h

section Rest

variable {maxPeers : Int} {moves : List Move}

/-- Only goroutines of a stream run the body of its `endSession`. -/
theorem entered_own {m : Move} {q q' : Goroutine → Duty}
    (hmembers : Holds (Op.exec u) (Relay.membership u cfg) t)
    (hown : ∀ g, (q g).entered = true → g.stream? = some i)
    (hstep : CleanupKept i t.shared q s' q' ∨ ∃ g n o a, CleanupOwn i t q m s' q' g n o a)
    (hg : (q' g).entered = true) : g.stream? = some i := by
  rcases hstep with hkept | ⟨g', n, o, a, hmove⟩
  · exact hown g (hkept.entered hg)
  · rw [hmove.duty] at hg
    by_cases hgg : g = g'
    · subst hgg
      obtain ⟨k, hnext⟩ := hmove.next
      exact (hmembers.req Relay.membership_sound hnext).1
    · rw [Function.update_of_ne hgg] at hg
      exact hown g hg

/-- While the session of a stream is being ended, somebody of that stream is at it. -/
theorem once_running (h : System.run u cfg (System.init maxPeers) moves = some t)
    (honce : (t.shared.streams i).endOnce = .running) :
    ∃ g o k, g.stream? = some i ∧ t.threads g = some (.op o k) ∧ o ≠ .stream i .onceEnter := by
  obtain ⟨q, hq, hclean, hown⟩ := cleaning_run (C := fun _ _ => True)
    (I := fun _ q => ∀ g, (q g).entered = true → g.stream? = some i)
    (fun hmembers _ _ _ hown hstep g hg => entered_own hmembers hown hstep hg) (by simp)
    (Machine.guarded_of_forall fun _ _ _ => trivial) h
  obtain ⟨g, hg⟩ := hclean.running honce
  cases hp : t.threads g with
  | none => simp [(hq.resting hp).2.1] at hg
  | some p =>
    obtain ⟨⟨o, k, rfl⟩, -⟩ := hq.running hp
    refine ⟨g, o, k, hown g hg, hp, ?_⟩
    rintro rfl
    have hmay := hq.may hp (hown g hg) rfl
    simp [Duty.MayOn, hg] at hmay

/-- Where no goroutine can go on, each one that is left waits for the receiver of its own
stream. -/
theorem stuck_onReceiver {o : Op} {k : o.Res → Proc Unit}
    (h : System.run u cfg (System.init maxPeers) moves = some t) (hup : t.shared.crashed = false)
    (hstuck : ∀ g n, System.step u cfg t (.run g n) = none) (hg : t.threads g = some (.op o k)) :
    ∃ i, g.stream? = some i ∧ (t.shared.streams i).sendCh.buf.length = 64 ∧
      (t.shared.streams i).cancelled = false := by
  have hexec : ∀ {g o} {k : o.Res → Proc Unit} n, t.threads g = some (.op o k) →
      o.exec u g n t.shared = none := by
    intro g o k n hg
    have hnone := hstuck g n
    simpa [System.step, step, hg] using hnone
  have hservice : ∀ {g o} {k : o.Res → Proc Unit}, t.threads g ≠ some (.op (.service o) k) := by
    intro g o k hg
    have hblocked : ∀ {g o} {k : o.Res → Proc Unit}, t.threads g = some (.op (.service o) k) →
        o.apply u g 0 t.shared.svc = none := by
      intro g o k hg
      have hnone := hexec 0 hg
      simpa [Op.exec, hup] using hnone
    -- whoever reads a room has a step to make that does not wait
    obtain ⟨⟨r, hreaders⟩, -, -⟩ := ServiceOp.apply_blocked (hblocked hg)
    obtain ⟨g', hg'⟩ := Finset.nonempty_iff_ne_empty.mpr hreaders
    obtain ⟨o', k', hp, ho⟩ := reader_delivers (locking_holds h) hg'
    obtain ⟨-, hdelivering, hrunlock⟩ := ServiceOp.apply_blocked (hblocked hp)
    rcases ho with ho | rfl
    · simp [ho] at hdelivering
    · exact hrunlock r rfl
  have hmembers := Relay.membership_holds h
  have hstream : ∀ {g i o} {k : o.Res → Proc Unit}, t.threads g = some (.op (.stream i o) k) →
      g.stream? = some i ∧ (((t.shared.streams i).sendCh.buf.length = 64 ∧
        (t.shared.streams i).cancelled = false) ∨
          (o = .onceEnter ∧ (t.shared.streams i).endOnce = .running)) := by
    intro g i o k hg
    refine ⟨(hmembers.req Relay.membership_sound hg).1, StreamOp.apply_blocked fun n => ?_⟩
    have hnone := hexec n hg
    simpa [Op.exec, hup] using hnone
  cases o with
  | service o => exact absurd hg hservice
  | stream i o =>
    obtain ⟨hown, hfull | ⟨rfl, honce⟩⟩ := hstream hg
    · exact ⟨i, hown, hfull⟩
    -- whoever ends the session is past its own `Once.Do`, so it waits for the receiver
    · obtain ⟨g', o', k', hown', hg', hne⟩ := once_running h honce
      cases o' with
      | service o' => exact absurd hg' hservice
      | stream j o' =>
        obtain ⟨hj, hfull | ⟨rfl, -⟩⟩ := hstream hg'
        · obtain rfl := Option.some.inj (hj.symm.trans hown')
          exact ⟨j, hown, hfull⟩
        · obtain rfl := Option.some.inj (hj.symm.trans hown')
          exact absurd rfl hne

/-- A goroutine goes on, and nothing else happens. -/
def System.Works (u : UuidSource) (cfg : Nat → StreamConfig) (t t' : System) : Prop :=
  ∃ g n, System.step u cfg t (.run g n) = some t'

/-- A receiver that does not receive holds up nobody but its own stream. From every state that
a run reaches, the goroutines come to a stop even if no event is received and no bridge moves,
and then each of them that has not returned is one of a stream with a full `sendCh` and a
context that is not done. -/
theorem slowReceiver_holdsUpItsOwn
    (h : System.run u cfg (System.init maxPeers) moves = some t) :
    (∀ f : Nat → System, f 0 = t → ∃ n, ¬ System.Works u cfg (f n) (f (n + 1))) ∧
      ∀ t', ReflTransGen (System.Works u cfg) t t' → t'.shared.crashed = false →
        (∀ t'', ¬ System.Works u cfg t' t'') → ∀ g, t'.threads g ≠ none →
          ∃ i, g.stream? = some i ∧ (t'.shared.streams i).sendCh.buf.length = 64 ∧
            (t'.shared.streams i).cancelled = false := by
  have hmoves : ∀ {t t'}, System.Works u cfg t t' → System.GoesOn u cfg t t' :=
    fun ⟨g, n, hstep⟩ => ⟨.run g n, trivial, hstep⟩
  refine ⟨fun f hf =>
    Machine.ends_of_acc (Subrelation.accessible hmoves (relay_descends h)) f hf, ?_⟩
  intro t' hworks hup hstuck g hg
  obtain ⟨moves', h'⟩ := Machine.exec_of_moves (fun ⟨g, n, hm⟩ => ⟨.run g n, hm⟩) h hworks
  obtain ⟨p, hp⟩ := Option.ne_none_iff_exists'.mp hg
  obtain ⟨⟨o, k, rfl⟩, -⟩ := (Relay.membership_holds h').running hp
  exact stuck_onReceiver h' hup (fun g n =>
    Option.eq_none_iff_forall_ne_some.mpr fun t'' hstep => hstuck t'' ⟨g, n, hstep⟩) hp

/-- A client joins, and a second join is half done. -/
def joinUnderWay : List Move :=
  List.flatten [
    .launch (.send 0 { action := some (.join { sessionId := "s1" }) }) ::
      List.replicate 19 (.run (.send 0) 0),
    .launch (.send 1 { action := some (.join { sessionId := "s1" }) }) ::
      List.replicate 12 (.run (.send 1) 0)]

theorem slowReceiver_holdsUpItsOwn_joinUnderWay : ∃ t,
    System.run .unary (fun _ => {}) (System.init 10) joinUnderWay = some t ∧
    (t.threads (.send 1)).isSome ∧
    ∀ f : Nat → System, f 0 = t →
      ∃ n, ¬ System.Works .unary (fun _ => {}) (f n) (f (n + 1)) := by
  have hrun : (System.run .unary (fun _ => {}) (System.init 10) joinUnderWay).any (fun t =>
      (t.threads (.send 1)).isSome) = true := by
    decide +kernel
  obtain ⟨t, ht, hsome⟩ := (Option.any_eq_true _ _).mp hrun
  exact ⟨t, ht, hsome, (slowReceiver_holdsUpItsOwn ht).1⟩

/-- Nothing is left to do until something comes from outside: nobody is at work, nothing is
queued on a stream, and a bridge that did not return waits for its client. -/
structure System.Quiet (t : System) : Prop where
  idle : ∀ g, t.threads g = none
  drained : ∀ i, (t.shared.streams i).sendCh.buf = []
  waiting : ∀ {i c}, (t.shared.streams i).bridges c ≠ .off →
    (t.shared.streams i).bridges c ≠ .ended →
    (t.shared.streams i).bridges c = .forwarding ∧ (t.shared.streams i).cancelled = false ∧
      (t.shared.svc.clientAt c).sendCh.buf = [] ∧
      (t.shared.svc.clientAt c).sendCh.closed = false ∧ (t.shared.svc.clientAt c).slow = false

/-- A stream that has an event queued can be received from. -/
theorem goesOn_recv (hup : t.shared.crashed = false) (hbuf : (t.shared.streams i).sendCh.buf ≠ []) :
    ∃ t', System.GoesOn u cfg t t' := by
  obtain ⟨s, hrecv⟩ : ∃ s, t.shared.recv i = some s :=
    Option.ne_none_iff_exists'.mp fun hnone =>
      hbuf (Go.Chan.pop?_eq_none.mp (Option.map_eq_none_iff.mp hnone))
  exact ⟨⟨s, t.threads⟩, .launch (.recv i), trivial,
    by simp [System.step, step, Launch.launch, hup, Launch.apply, hrecv]⟩

/-- A bridge can go on, unless it waits for its client or has returned. -/
theorem waiting_of_stuck (hup : t.shared.crashed = false) (hidle : ∀ g, t.threads g = none)
    (hdrained : (t.shared.streams i).sendCh.buf = [])
    (hstuck : ∀ choice, System.step u cfg t (.launch (.bridge i c choice)) = none)
    (hoff : (t.shared.streams i).bridges c ≠ .off)
    (hended : (t.shared.streams i).bridges c ≠ .ended) :
    (t.shared.streams i).bridges c = .forwarding ∧ (t.shared.streams i).cancelled = false ∧
      (t.shared.svc.clientAt c).sendCh.buf = [] ∧
      (t.shared.svc.clientAt c).sendCh.closed = false ∧
      (t.shared.svc.clientAt c).slow = false := by
  have hnone : ∀ choice,
      t.shared.bridgeStep i c ((t.shared.streams i).bridges c) choice = none := by
    intro choice
    have hstep := hstuck choice
    rcases hb : t.shared.bridgeStep i c ((t.shared.streams i).bridges c) choice with
      _ | ⟨s, _ | ⟨g, p⟩⟩
    · rfl
    · simp [System.step, step, Launch.launch, hup, Launch.apply, hb] at hstep
    · simp [System.step, step, Launch.launch, hup, Launch.apply, hb, hidle] at hstep
  have hroom : ∀ item, t.shared.put? i item ≠ none := by
    intro item
    cases hclosed : (t.shared.streams i).sendCh.closed <;>
      simp [Relay.put?, hclosed, Go.Chan.push?, hdrained]
  cases hb : (t.shared.streams i).bridges c with
  | off => exact absurd hb hoff
  | ended => exact absurd hb hended
  | ending => simpa [hb, Relay.bridgeStep] using hnone .chan
  | holding q => simpa [hb, Relay.bridgeStep, hroom] using hnone .chan
  | evicting held =>
    have hchan := hnone .chan
    cases held with
    | none =>
      cases htake : t.shared.takeFor c <;> simp [hb, Relay.bridgeStep, htake] at hchan
    | some q =>
      cases hput : t.shared.put? i (.room c q) <;> simp [hb, Relay.bridgeStep, hput] at hchan
  | forwarding =>
    have hslow := hnone .slow
    have hdone := hnone .done
    have hchan := hnone .chan
    simp only [hb, Relay.bridgeStep] at hslow hdone hchan
    cases htake : t.shared.takeFor c with
    | some taken => simp [htake] at hchan
    | none =>
      have hempty := Go.Chan.pop?_eq_none.mp
        (Option.map_eq_none_iff.mp (Option.map_eq_none_iff.mp htake))
      exact ⟨rfl, by simpa using hdone, hempty, by simpa [htake] using hchan, by simpa using hslow⟩

/-- A relay that can make no move of its own is quiet. -/
theorem quiet_of_stuck (h : System.run u cfg (System.init maxPeers) moves = some t)
    (hup : t.shared.crashed = false) (hstuck : ∀ t', ¬ System.GoesOn u cfg t t') : t.Quiet := by
  have hnone : ∀ m, Internal m → System.step u cfg t m = none := fun m hm =>
    Option.eq_none_iff_forall_ne_some.mpr fun t' hstep => hstuck t' ⟨m, hm, hstep⟩
  have hdrained : ∀ i, (t.shared.streams i).sendCh.buf = [] := by
    intro i
    by_contra hbuf
    obtain ⟨t', hgo⟩ := @goesOn_recv u cfg _ i hup hbuf
    exact hstuck t' hgo
  have hidle : ∀ g, t.threads g = none := by
    intro g
    by_contra hg
    obtain ⟨p, hp⟩ := Option.ne_none_iff_exists'.mp hg
    obtain ⟨⟨o, k, rfl⟩, -⟩ := (Relay.membership_holds h).running hp
    obtain ⟨i, -, hfull, -⟩ := stuck_onReceiver h hup (fun g n => hnone (.run g n) trivial) hp
    simp [hdrained i] at hfull
  exact ⟨hidle, hdrained, fun hoff hended =>
    waiting_of_stuck hup hidle (hdrained _)
      (fun choice => hnone (.launch (.bridge _ _ choice)) trivial)
      hoff hended⟩

/-- The relay makes neither a deadlock nor a livelock. From every state that a run reaches it
makes finitely many moves of its own, in whatever order, and a state where it can make none
is quiet. -/
theorem relay_settles (h : System.run u cfg (System.init maxPeers) moves = some t) :
    (∀ f : Nat → System, f 0 = t → ∃ n, ¬ System.GoesOn u cfg (f n) (f (n + 1))) ∧
      ∀ t', ReflTransGen (System.GoesOn u cfg) t t' → t'.shared.crashed = false →
        (∀ t'', ¬ System.GoesOn u cfg t' t'') → t'.Quiet := by
  refine ⟨fun f hf => Machine.ends_of_acc (relay_descends h) f hf, ?_⟩
  intro t' hgo hup hstuck
  obtain ⟨moves', h'⟩ := Machine.exec_of_moves (fun ⟨m, _, hm⟩ => ⟨m, hm⟩) h hgo
  exact quiet_of_stuck h' hup hstuck

theorem relay_settles_joinUnderWay : ∃ t,
    System.run .unary (fun _ => {}) (System.init 10) joinUnderWay = some t ∧
    (t.threads (.send 1)).isSome ∧
    ∀ f : Nat → System, f 0 = t →
      ∃ n, ¬ System.GoesOn .unary (fun _ => {}) (f n) (f (n + 1)) := by
  have hrun : (System.run .unary (fun _ => {}) (System.init 10) joinUnderWay).any (fun t =>
      (t.threads (.send 1)).isSome) = true := by
    decide +kernel
  obtain ⟨t, ht, hsome⟩ := (Option.any_eq_true _ _).mp hrun
  exact ⟨t, ht, hsome, (relay_settles ht).1⟩

end Rest

end MassRelay

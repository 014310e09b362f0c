import MassRelay.Lib.Discipline
import MassRelay.Server.Stream
import MassRelay.Services.Handlers

/-!
# MassRelay.Server.Lift

What holds of the service's calls on their own holds of them in the relay.

A stream reaches the service only through `HandleAction` and `GetClient`, and its
bridges only take events out of queues. So a protocol of the service is one of the
relay (`Relay.lift`): it is enough that its calls keep what an idle goroutine owes
(`CallsKeep`) and that taking an event out of a queue is no harm (`ServiceSound`). In
the same way a discipline that its calls begin and end in one state (`CallsStay`) is one
that everything in the relay follows.
-/

namespace MassRelay

open Threads

variable {u : UuidSource} {cfg : Nat → StreamConfig} {s s' : Relay} {g : Goroutine}

/-! ### What the streams do to the service -/

theorem Relay.put?_svc {i : Nat} {item : Item} (h : s.put? i item = some s') :
    s'.svc = s.svc := by
  unfold Relay.put? at h
  split at h
  · obtain rfl := Option.some.inj h
    rfl
  · obtain ⟨ch, -, rfl⟩ := Option.map_eq_some_iff.mp h
    rfl

theorem Relay.reply_svc {i n : Nat} {e : CollabEvent} {queued : Bool}
    (h : s.reply i e n = some (s', queued)) : s'.svc = s.svc := by
  unfold Relay.reply at h
  split at h
  · obtain ⟨s₁, hput, heq⟩ := Option.map_eq_some_iff.mp h
    obtain ⟨rfl, -⟩ := Prod.mk.inj heq
    have hsvc := Relay.put?_svc hput
    unfold Relay.noteReplied
    split <;> exact hsvc
  · split at h
    · obtain ⟨rfl, -⟩ := Prod.mk.inj (Option.some.inj h)
      rfl
    · simp at h

/-- A step on a stream does not touch the service. -/
theorem StreamOp.apply_svc {i n : Nat} {o : StreamOp} {a : o.Res}
    (h : o.apply i n s = some (s', a)) : s'.svc = s.svc := by
  cases o with
  | reply e => exact Relay.reply_svc h
  | onceEnter =>
    simp only [StreamOp.apply] at h
    split at h
    · obtain ⟨rfl, -⟩ := Prod.mk.inj (Option.some.inj h)
      rfl
    · simp at h
    · obtain ⟨rfl, -⟩ := Prod.mk.inj (Option.some.inj h)
      rfl
  | closeSendCh =>
    simp only [StreamOp.apply] at h
    split at h <;> (obtain ⟨rfl, -⟩ := Prod.mk.inj (Option.some.inj h); rfl)
  | _ =>
    obtain ⟨rfl, -⟩ := Prod.mk.inj (Option.some.inj h)
    rfl

theorem Op.exec_service {n : Nat} {o : ServiceOp} {a : o.Res}
    (h : (Op.service o).exec u g n s = some (s', a)) :
    s.crashed = false ∧ o.apply u g n s.svc = some (s'.svc, a) ∧ s' = { s with svc := s'.svc } := by
  simp only [Op.exec] at h
  split at h
  · simp at h
  · rename_i hcrash
    obtain ⟨⟨svc, a'⟩, hx, heq⟩ := Option.map_eq_some_iff.mp h
    obtain ⟨rfl, rfl⟩ := Prod.mk.inj heq
    exact ⟨Bool.eq_false_of_not_eq_true hcrash, hx, rfl⟩

theorem Op.exec_stream {i n : Nat} {o : StreamOp} {a : o.Res}
    (h : (Op.stream i o).exec u g n s = some (s', a)) :
    s.crashed = false ∧ o.apply i n s = some (s', a) := by
  simp only [Op.exec] at h
  split at h
  · simp at h
  · rename_i hcrash
    exact ⟨Bool.eq_false_of_not_eq_true hcrash, h⟩

theorem Relay.crashed_svc (h : s.crashed = false) : s.svc.panicked = false := by
  simp only [Relay.crashed, Bool.or_eq_false_iff] at h
  exact h.2

theorem Launch.launch_eq_some {m : Launch} {start : Option (Goroutine × Proc Unit)}
    (h : m.launch cfg s = some (s', start)) :
    s.crashed = false ∧ m.apply cfg s = some (s', start) := by
  simp only [Launch.launch] at h
  split at h
  · simp at h
  · rename_i hcrash
    exact ⟨Bool.eq_false_of_not_eq_true hcrash, h⟩

/-- What a step of the bridge of client `c` on stream `i` can do, with where the bridge
is before and after. -/
inductive BridgeEffect (s : Relay) (i : Nat) (c : String) :
    Bridge → Relay → Option (Goroutine × Proc Unit) → Prop
  | take {b b' : Bridge} {q : Queued} {svc : CollabService} (htake : s.svc.take? c = some (q, svc))
      (hb : (b = .forwarding ∧ b' = .holding q) ∨ (b = .evicting none ∧ b' = .evicting (some q))) :
      BridgeEffect s i c b (Relay.setBridge { s with svc } i c b') none
  | put {b b' : Bridge} {q : Queued} {s₁ : Relay} (hput : s.put? i (.room c q) = some s₁)
      (hb : (b = .holding q ∧ b' = .forwarding) ∨ (b = .evicting (some q) ∧ b' = .evicting none)) :
      BridgeEffect s i c b (s₁.setBridge i c b') none
  | slow {b b' : Bridge} (hslow : (s.svc.clientAt c).slow = true)
      (hb : (b = .forwarding ∧ b' = .evicting none) ∨
        ∃ q, b = .holding q ∧ b' = .evicting (some q)) :
      BridgeEffect s i c b (s.setBridge i c b') none
  | stop {b b' : Bridge}
      (hb : ((b = .forwarding ∨ ∃ q, b = .holding q) ∧ b' = .ended) ∨
        ∃ held, b = .evicting held ∧ b' = .ending) :
      BridgeEffect s i c b (s.setBridge i c b') none
  | evict : BridgeEffect s i c .ending (s.setBridge i c .ended)
      (some (.bridge i c, Stream.endSession i "slow_consumer"))

theorem Relay.takeFor_eq_some {c : String} {q : Queued} (h : s.takeFor c = some (q, s')) :
    ∃ svc, s.svc.take? c = some (q, svc) ∧ s' = { s with svc } := by
  obtain ⟨⟨q', svc⟩, hq, heq⟩ := Option.map_eq_some_iff.mp h
  obtain ⟨rfl, rfl⟩ := Prod.mk.inj heq
  exact ⟨svc, hq, rfl⟩

/-- Every step of a bridge has one of these effects. -/
theorem Relay.bridgeStep_effect {i : Nat} {c : String} {b : Bridge} {choice : Choice}
    {start : Option (Goroutine × Proc Unit)} (h : s.bridgeStep i c b choice = some (s', start)) :
    BridgeEffect s i c b s' start := by
  unfold Relay.bridgeStep at h
  split at h
  · split at h
    · rename_i q s₁ hq
      obtain ⟨svc, htake, rfl⟩ := Relay.takeFor_eq_some hq
      obtain ⟨rfl, rfl⟩ := Prod.mk.inj (Option.some.inj h)
      exact .take htake (Or.inl ⟨rfl, rfl⟩)
    · split at h
      · obtain ⟨rfl, rfl⟩ := Prod.mk.inj (Option.some.inj h)
        exact .stop (Or.inl ⟨Or.inl rfl, rfl⟩)
      · simp at h
  · obtain ⟨s₁, hput, heq⟩ := Option.map_eq_some_iff.mp h
    obtain ⟨rfl, rfl⟩ := Prod.mk.inj heq
    exact .put hput (Or.inl ⟨rfl, rfl⟩)
  · split at h
    · rename_i hslow
      obtain ⟨rfl, rfl⟩ := Prod.mk.inj (Option.some.inj h)
      exact .slow hslow (Or.inl ⟨rfl, rfl⟩)
    · simp at h
  · split at h
    · rename_i q hslow
      obtain ⟨rfl, rfl⟩ := Prod.mk.inj (Option.some.inj h)
      exact .slow hslow (Or.inr ⟨q, rfl, rfl⟩)
    · simp at h
  · split at h
    · obtain ⟨rfl, rfl⟩ := Prod.mk.inj (Option.some.inj h)
      exact .stop (Or.inl ⟨Or.inl rfl, rfl⟩)
    · simp at h
  · split at h
    · obtain ⟨rfl, rfl⟩ := Prod.mk.inj (Option.some.inj h)
      exact .stop (Or.inl ⟨Or.inr ⟨_, rfl⟩, rfl⟩)
    · simp at h
  · split at h
    · rename_i q s₁ hq
      obtain ⟨svc, htake, rfl⟩ := Relay.takeFor_eq_some hq
      obtain ⟨rfl, rfl⟩ := Prod.mk.inj (Option.some.inj h)
      exact .take htake (Or.inr ⟨rfl, rfl⟩)
    · obtain ⟨rfl, rfl⟩ := Prod.mk.inj (Option.some.inj h)
      exact .stop (Or.inr ⟨none, rfl, rfl⟩)
  · rename_i q
    split at h
    · rename_i s₁ hput
      obtain ⟨rfl, rfl⟩ := Prod.mk.inj (Option.some.inj h)
      exact .put hput (Or.inr ⟨rfl, rfl⟩)
    · obtain ⟨rfl, rfl⟩ := Prod.mk.inj (Option.some.inj h)
      exact .stop (Or.inr ⟨some q, rfl, rfl⟩)
  · obtain ⟨rfl, rfl⟩ := Prod.mk.inj (Option.some.inj h)
    exact .evict
  · simp at h

/-- A bridge takes at most one event out of its client's queue. -/
theorem BridgeEffect.svc {i : Nat} {c : String} {b : Bridge}
    {start : Option (Goroutine × Proc Unit)} (h : BridgeEffect s i c b s' start) :
    s'.svc = s.svc ∨ ∃ q, s.svc.take? c = some (q, s'.svc) := by
  cases h with
  | take htake _ => exact Or.inr ⟨_, htake⟩
  | put hput _ =>
    have hsvc := Relay.put?_svc hput
    exact Or.inl hsvc
  | slow _ _ | stop _ | evict => exact Or.inl rfl

/-- What a bridge starts. -/
theorem BridgeEffect.start {i : Nat} {c : String} {b : Bridge} {p : Proc Unit}
    (h : BridgeEffect s i c b s' (some (g, p))) :
    g = .bridge i c ∧ p = Stream.endSession i "slow_consumer" := by
  cases h with
  | evict => exact ⟨rfl, rfl⟩

/-- What a launch does to the service. -/
theorem Launch.apply_svc {m : Launch} {start : Option (Goroutine × Proc Unit)}
    (h : m.apply cfg s = some (s', start)) :
    s'.svc = s.svc ∨ ∃ c q, s.svc.take? c = some (q, s'.svc) := by
  cases m with
  | recv i =>
    obtain ⟨s₁, hrecv, heq⟩ := Option.map_eq_some_iff.mp h
    obtain ⟨rfl, -⟩ := Prod.mk.inj heq
    obtain ⟨⟨item, ch⟩, -, rfl⟩ := Option.map_eq_some_iff.mp hrecv
    exact Or.inl rfl
  | bridge i c choice =>
    exact (Relay.bridgeStep_effect h).svc.imp_right fun hq => ⟨c, hq⟩
  | watchClose i | expire i =>
    simp only [Launch.apply] at h
    split at h
    · obtain ⟨rfl, -⟩ := Prod.mk.inj (Option.some.inj h)
      exact Or.inl rfl
    · simp at h
  | send _ _ | cancel _ | closeSend _ _ | direct _ _ =>
    obtain ⟨rfl, -⟩ := Prod.mk.inj (Option.some.inj h)
    exact Or.inl rfl

/-- The goroutines that a launch can start, with their programs. -/
inductive Started (cfg : Nat → StreamConfig) : Launch → Goroutine → Proc Unit → Prop
  | send (i : Nat) (a : CollabAction) : Started cfg (.send i a) (.send i) (do
      let _ ← Stream.send (cfg i) i a
      return)
  | watchClose (i : Nat) : Started cfg (.watchClose i) (.watchClose i) (Stream.watchClose (cfg i) i)
  | expire (i : Nat) : Started cfg (.expire i) (.expiry i) (Stream.endSession i "token_expired")
  | closeSend (i k : Nat) : Started cfg (.closeSend i k) (.closeSend i k) (Stream.closeSend i)
  | evict (i : Nat) (c : String) (choice : Choice) :
      Started cfg (.bridge i c choice) (.bridge i c) (Stream.endSession i "slow_consumer")
  | direct (k : Nat) (call : DirectCall) : Started cfg (.direct k call) (.direct k) call.proc

theorem Launch.apply_started {m : Launch} {p : Proc Unit}
    (h : m.apply cfg s = some (s', some (g, p))) : Started cfg m g p := by
  cases m with
  | send i a =>
    obtain ⟨-, heq⟩ := Prod.mk.inj (Option.some.inj h)
    obtain ⟨rfl, rfl⟩ := Prod.mk.inj (Option.some.inj heq)
    exact .send i a
  | recv i =>
    obtain ⟨s₁, -, heq⟩ := Option.map_eq_some_iff.mp h
    simp at heq
  | cancel i => simp [Launch.apply] at h
  | watchClose i =>
    simp only [Launch.apply] at h
    split at h
    · obtain ⟨-, heq⟩ := Prod.mk.inj (Option.some.inj h)
      obtain ⟨rfl, rfl⟩ := Prod.mk.inj (Option.some.inj heq)
      exact .watchClose i
    · simp at h
  | expire i =>
    simp only [Launch.apply] at h
    split at h
    · obtain ⟨-, heq⟩ := Prod.mk.inj (Option.some.inj h)
      obtain ⟨rfl, rfl⟩ := Prod.mk.inj (Option.some.inj heq)
      exact .expire i
    · simp at h
  | closeSend i k =>
    obtain ⟨-, heq⟩ := Prod.mk.inj (Option.some.inj h)
    obtain ⟨rfl, rfl⟩ := Prod.mk.inj (Option.some.inj heq)
    exact .closeSend i k
  | bridge i c choice =>
    obtain ⟨rfl, rfl⟩ := (Relay.bridgeStep_effect h).start
    exact .evict i c choice
  | direct k call =>
    obtain ⟨-, heq⟩ := Prod.mk.inj (Option.some.inj h)
    obtain ⟨rfl, rfl⟩ := Prod.mk.inj (Option.some.inj heq)
    exact .direct k call

/-- Goroutines that no move of a run starts are idle throughout. -/
theorem never_started {P : Goroutine → Prop} {t : System} {moves : List Move}
    (hmoves : ∀ m, .launch m ∈ moves → ∀ g p, P g → ¬ Started cfg m g p)
    (ht : ∀ g, P g → t.threads g = none) :
    Machine.Guarded (System.step u cfg) (fun t _ => ∀ g, P g → t.threads g = none) t moves ∧
      ∀ t', System.run u cfg t moves = some t' → ∀ g, P g → t'.threads g = none := by
  induction moves generalizing t with
  | nil =>
    refine ⟨trivial, fun t' h => ?_⟩
    obtain rfl := Option.some.inj h
    exact ht
  | cons m moves ih =>
    have hstep : ∀ {t'}, System.step u cfg t m = some t' → ∀ g, P g → t'.threads g = none := by
      intro t' h g hg
      cases m with
      | run g' n =>
        obtain ⟨o, k, s, a, hg', -, rfl⟩ := step_run h
        have hne : g ≠ g' := by
          rintro rfl
          simp [ht g hg] at hg'
        exact (Function.update_of_ne hne _ _).trans (ht g hg)
      | launch m =>
        rcases step_launch h with ⟨s, -, rfl⟩ | ⟨s, g', p, hl, -, rfl⟩
        · exact ht g hg
        · have hstarted := Launch.apply_started (Launch.launch_eq_some hl).2
          have hne : g ≠ g' := by
            rintro rfl
            exact hmoves m List.mem_cons_self g p hg hstarted
          exact (Function.update_of_ne hne _ _).trans (ht g hg)
    have hrest : ∀ m, .launch m ∈ moves → ∀ g p, P g → ¬ Started cfg m g p :=
      fun m hm => hmoves m (List.mem_cons_of_mem _ hm)
    refine ⟨⟨ht, fun t' h => (ih hrest (hstep h)).1⟩, fun t' h => ?_⟩
    obtain ⟨t₁, hm, hrun⟩ := Machine.exec_cons_eq_some h
    exact (ih hrest (hstep hm)).2 t' hrun

/-- The goroutine that a launch starts, if it starts one. -/
def Launch.starts? : Launch → Option Goroutine
  | .send i _ => some (.send i)
  | .watchClose i => some (.watchClose i)
  | .expire i => some (.expiry i)
  | .closeSend i k => some (.closeSend i k)
  | .bridge i c _ => some (.bridge i c)
  | .direct k _ => some (.direct k)
  | .recv _ | .cancel _ => none

/-- The goroutines that a list of moves starts. -/
def startedBy (moves : List Move) : List Goroutine :=
  moves.filterMap fun
    | .launch m => m.starts?
    | .run _ _ => none

theorem mem_startedBy {moves : List Move} {m : Launch} {p : Proc Unit} (hm : .launch m ∈ moves)
    (h : Started cfg m g p) : g ∈ startedBy moves := by
  refine List.mem_filterMap.mpr ⟨.launch m, hm, ?_⟩
  cases h <;> rfl

/-- No goroutine is running when those that the run started are not. -/
theorem idle_of_started {maxPeers : Int} {moves : List Move} {t : System}
    (h : System.run u cfg (System.init maxPeers) moves = some t)
    (hidle : (startedBy moves).all (fun g => (t.threads g).isNone) = true) (g : Goroutine) :
    t.threads g = none := by
  by_cases hg : g ∈ startedBy moves
  · exact Option.isNone_iff_eq_none.mp (List.all_eq_true.mp hidle g hg)
  · refine (never_started (P := fun g => g ∉ startedBy moves) ?_ fun _ _ => rfl).2 t h g hg
    exact fun m hm g p hg hstarted => hg (mem_startedBy hm hstarted)

/-! ### What the goroutines of a stream do -/

section All

variable {L : Op → Prop} {i : Nat} {α : Type}

theorem Call.proc_all (hservice : ∀ o, L (.service o)) (call : Call α) : call.proc.All L :=
  .embed (.of_forall hservice call)

theorem Stream.leaveAndCleanup_all (hservice : ∀ o, L (.service o)) (hclear : L (.stream i .clear))
    (reason : String) : (Stream.leaveAndCleanup i reason).All L := by
  refine .bind (.perform hclear) fun ids => ?_
  dsimp only
  split
  · exact .bind (Call.proc_all hservice _) fun _ => trivial
  · trivial

section Methods

variable (hservice : ∀ o, L (.service o)) (hstream : ∀ o, o ≠ .closeSendCh → L (.stream i o))

include hservice hstream

theorem Stream.refuse_all (code message : String) : (Stream.refuse i code message).All L :=
  .bind (Call.proc_all hservice _) fun _ => .bind (.perform (hstream _ nofun)) fun _ => trivial

theorem Stream.sendAction_all (c : StreamConfig) (a : CollabAction) :
    (Stream.sendAction c i a).All L := by
  refine .bind (Call.proc_all hservice _) fun answer => ?_
  cases answer with
  | err _ | nothing => trivial
  | event e =>
    refine .bind ?_ fun _ => .bind (.perform (hstream _ nofun)) fun _ => trivial
    unfold Stream.noteJoined
    split
    · exact .onlyIf (.bind (.perform (hstream _ nofun)) fun _ =>
        .bind (Call.proc_all hservice _) fun _ => .onlyIf (.perform (hstream _ nofun)))
    · trivial

theorem Stream.send_all (c : StreamConfig) (a : CollabAction) : (Stream.send c i a).All L := by
  have hchecked : (Stream.sendChecked c i a).All L := by
    refine .bind (.perform (hstream _ nofun)) fun joinedAs => ?_
    split
    · split
      · exact Stream.refuse_all hservice hstream _ _
      · exact Stream.sendAction_all hservice hstream c a
    · split
      · trivial
      · exact Stream.sendAction_all hservice hstream c _
  unfold Stream.send
  split
  · exact hchecked
  · split
    · exact hchecked
    · refine .bind (.perform (hstream _ nofun)) fun allowed => ?_
      split
      · exact hchecked
      · exact Stream.refuse_all hservice hstream _ _

theorem Stream.endSession_all (reason : String) : (Stream.endSession i reason).All L := by
  refine .bind (.perform (hstream _ nofun)) fun first => ?_
  split
  · refine .bind ?_ fun _ => .bind (Call.proc_all hservice _) fun _ =>
      .bind (.bind (.perform (hstream _ nofun)) fun _ => trivial) fun _ =>
      .bind (.perform (hstream _ nofun)) fun _ => .perform (hstream _ nofun)
    exact Stream.leaveAndCleanup_all hservice (hstream _ nofun) _
  · trivial

end Methods

end All

/-! ### A protocol of the service as one of the relay -/

/-- The protocol of the service, for the relay; `direct` says whether the runs it is
about have calls of an embedding server. -/
def Relay.lift (direct : Prop) (P : Protocol CollabService Goroutine ServiceOp Unit) :
    Protocol Relay Goroutine Op Launch where
  inv s := P.inv s.svc
  rely g s s' := P.rely g s.svc s'.svc
  idle g s := P.idle g s.svc
  req g o s :=
    match o with
    | .service o => P.req g o s.svc
    | .stream _ _ => True
  ok g n o s :=
    match o with
    | .service o => P.ok g n o s.svc
    | .stream _ _ => True
  okLaunch m _ :=
    match m with
    | .direct _ _ => direct
    | _ => True

/-- The steps of the service and of the bridges respect the protocol. -/
structure ServiceSound (u : UuidSource) (P : Protocol CollabService Goroutine ServiceOp Unit) :
    Prop where
  refl : ∀ {g s}, P.rely g s s
  trans : ∀ {g s₁ s₂ s₃}, P.rely g s₁ s₂ → P.rely g s₂ s₃ → P.rely g s₁ s₃
  idle_stable : ∀ {g s₁ s₂}, P.rely g s₁ s₂ → P.idle g s₁ → P.idle g s₂
  guarantee : ∀ {g g' n} {o : ServiceOp} {s₁ s₂ r}, P.inv s₁ → P.req g o s₁ → P.ok g n o s₁ →
    o.exec u g n s₁ = some (s₂, r) → g' ≠ g → P.rely g' s₁ s₂
  take : ∀ {s₁ s₂ : CollabService} {c q}, P.inv s₁ → s₁.take? c = some (q, s₂) →
    P.inv s₂ ∧ ∀ g, P.rely g s₁ s₂

/-- The calls that streams make of the service keep `A`. -/
structure CallsKeep (u : UuidSource) (P : Protocol CollabService Goroutine ServiceOp Unit)
    (g : Goroutine) (A : CollabService → Prop) : Prop where
  stable : ∀ {s₁ s₂}, P.rely g s₁ s₂ → A s₁ → A s₂
  uuid : Keeps (ServiceOp.exec u) P g A Call.uuid
  getClient : ∀ sid c, Keeps (ServiceOp.exec u) P g A (Call.getClient sid c)
  handleAction : ∀ ctx a, Keeps (ServiceOp.exec u) P g A (Call.handleAction ctx a)

section Lift

variable {P : Protocol CollabService Goroutine ServiceOp Unit} {A : CollabService → Prop}
variable {direct : Prop} {α : Type}

theorem Op.exec_service_exec {n : Nat} {o : ServiceOp} {a : o.Res}
    (h : (Op.service o).exec u g n s = some (s', a)) :
    o.exec u g n s.svc = some (s'.svc, a) := by
  obtain ⟨hcrash, happly, -⟩ := Op.exec_service h
  simp [ServiceOp.exec, Relay.crashed_svc hcrash, happly]

theorem Relay.lift_part :
    Part (ServiceOp.exec u) P (Op.exec u) (Relay.lift direct P) .service (fun _ r => r)
      Relay.svc g where
  rely h := h
  inv h := h
  req h := h
  ok _ h := h
  exec h := Op.exec_service_exec h
  keep _ _ _ _ h := h

/-- A call keeps in the relay what it keeps in the service. -/
theorem Call.proc_keeps {call : Call α}
    (h : Keeps (ServiceOp.exec u) P g A call) :
    Keeps (Op.exec u) (Relay.lift direct P) g (fun s => A s.svc) call.proc := by
  intro s hA
  refine wp_mono (fun _ _ h => h.1) (wp_embed (B := fun _ => True) Relay.lift_part ?_ ?_
    (h s.svc hA) trivial)
  · exact fun _ _ => trivial
  · exact fun _ _ _ _ => trivial

/-- A step on a stream keeps whatever holds of the service. -/
theorem StreamOp.perform_keeps {i : Nat} {o : StreamOp}
    (hA : ∀ {s₁ s₂}, P.rely g s₁ s₂ → A s₁ → A s₂) :
    Keeps (Op.exec u) (Relay.lift direct P) g (fun s => A s.svc) (Stream.perform i o) := by
  refine Keeps.perform (fun hrely hs => hA hrely hs) (fun _ _ => trivial) ?_
  intro n s₁ s₂ a hinv hs _ hx
  have hsvc := StreamOp.apply_svc (Op.exec_stream hx).2
  refine ⟨?_, ?_⟩
  · show P.inv s₂.svc
    rw [hsvc]
    exact hinv
  · rw [hsvc]
    exact hs

section Methods

variable (hcalls : CallsKeep u P g A)

include hcalls

theorem Stream.refuse_keeps (i : Nat) (code message : String) :
    Keeps (Op.exec u) (Relay.lift direct P) g (fun s => A s.svc) (Stream.refuse i code message) :=
  .bind (Call.proc_keeps hcalls.uuid) fun _ =>
    .bind (StreamOp.perform_keeps hcalls.stable) fun _ => .ret _

theorem Stream.noteJoined_keeps (i : Nat) (joining : Bool) (e : CollabEvent) :
    Keeps (Op.exec u) (Relay.lift direct P) g (fun s => A s.svc)
      (Stream.noteJoined i joining e) := by
  unfold Stream.noteJoined
  split
  · refine .onlyIf (.bind (StreamOp.perform_keeps hcalls.stable) fun _ =>
      .bind (Call.proc_keeps (hcalls.getClient _ _)) fun found => .onlyIf ?_)
    exact StreamOp.perform_keeps hcalls.stable
  · exact .ret _

theorem Stream.sendAction_keeps (c : StreamConfig) (i : Nat) (a : CollabAction) :
    Keeps (Op.exec u) (Relay.lift direct P) g (fun s => A s.svc) (Stream.sendAction c i a) := by
  refine .bind (Call.proc_keeps (hcalls.handleAction _ a)) fun answer => ?_
  unfold Stream.sendAnswer
  split
  · exact .ret _
  · exact .ret _
  · exact .bind (Stream.noteJoined_keeps hcalls i _ _) fun _ =>
      .bind (StreamOp.perform_keeps hcalls.stable) fun _ => .ret _

theorem Stream.sendChecked_keeps (c : StreamConfig) (i : Nat) (a : CollabAction) :
    Keeps (Op.exec u) (Relay.lift direct P) g (fun s => A s.svc) (Stream.sendChecked c i a) := by
  refine .bind (StreamOp.perform_keeps hcalls.stable) fun joinedAs => ?_
  split
  · split
    · exact Stream.refuse_keeps hcalls i _ _
    · exact Stream.sendAction_keeps hcalls c i a
  · split
    · exact .ret _
    · exact Stream.sendAction_keeps hcalls c i _

theorem Stream.send_keeps (c : StreamConfig) (i : Nat) (a : CollabAction) :
    Keeps (Op.exec u) (Relay.lift direct P) g (fun s => A s.svc) (Stream.send c i a) := by
  unfold Stream.send
  split
  · exact Stream.sendChecked_keeps hcalls c i a
  · split
    · exact Stream.sendChecked_keeps hcalls c i a
    · refine .bind (StreamOp.perform_keeps hcalls.stable) fun allowed => ?_
      split
      · exact Stream.sendChecked_keeps hcalls c i a
      · exact Stream.refuse_keeps hcalls i _ _

theorem Stream.leaveAndCleanup_keeps (i : Nat) (reason : String) :
    Keeps (Op.exec u) (Relay.lift direct P) g (fun s => A s.svc)
      (Stream.leaveAndCleanup i reason) := by
  refine .bind (StreamOp.perform_keeps hcalls.stable) fun ids => ?_
  dsimp only
  split
  · exact .bind (Call.proc_keeps (hcalls.handleAction _ _)) fun _ => .ret _
  · exact .ret _

theorem Stream.endSession_keeps (i : Nat) (reason : String) :
    Keeps (Op.exec u) (Relay.lift direct P) g (fun s => A s.svc) (Stream.endSession i reason) := by
  refine .bind (StreamOp.perform_keeps hcalls.stable) fun first => ?_
  split
  · refine .bind (Stream.leaveAndCleanup_keeps hcalls i reason) fun _ =>
      .bind (Call.proc_keeps hcalls.uuid) fun _ => .bind ?_ fun _ =>
      .bind (StreamOp.perform_keeps hcalls.stable) fun _ => StreamOp.perform_keeps hcalls.stable
    exact .bind (StreamOp.perform_keeps hcalls.stable) fun _ => .ret _
  · exact .ret _

/-- Whatever a launch starts keeps what the calls of the service do. -/
theorem Launch.start_keeps {m : Launch} {p : Proc Unit}
    (hdeliver : (∃ k call, m = .direct k call) → ∀ sid c msg,
      Keeps (ServiceOp.exec u) P g A (Call.deliverAppMessage sid c msg))
    (h : m.apply cfg s = some (s', some (g, p))) :
    Keeps (Op.exec u) (Relay.lift direct P) g (fun s => A s.svc) p := by
  cases Launch.apply_started h with
  | send i a => exact .bind (Stream.send_keeps hcalls _ i a) fun _ => .ret _
  | watchClose i =>
    exact .bind (.onlyIf (StreamOp.perform_keeps hcalls.stable)) fun _ =>
      Stream.leaveAndCleanup_keeps hcalls i _
  | expire i => exact Stream.endSession_keeps hcalls i _
  | closeSend i k =>
    exact .bind (Stream.leaveAndCleanup_keeps hcalls i _) fun _ =>
      StreamOp.perform_keeps hcalls.stable
  | evict i c choice => exact Stream.endSession_keeps hcalls i _
  | direct k call =>
    cases call with
    | handleAction ctx a =>
        exact .bind (Call.proc_keeps (hcalls.handleAction ctx a)) fun _ => .ret _
    | deliverAppMessage sid c msg =>
      exact .bind (Call.proc_keeps (hdeliver ⟨k, _, rfl⟩ sid c msg)) fun _ => .ret _

end Methods

/-- A protocol of the service that its calls keep is one of the relay. -/
theorem ServiceSound.lift (hP : ServiceSound u P)
    (hcalls : ∀ g, CallsKeep u P g (P.idle g))
    (hdeliver : direct → ∀ k sid c msg, Keeps (ServiceOp.exec u) P (.direct k) (P.idle (.direct k))
      (Call.deliverAppMessage sid c msg)) :
    Sound (Op.exec u) (Launch.launch cfg) (Relay.lift direct P) where
  refl := hP.refl
  trans := hP.trans
  idle_stable := hP.idle_stable
  guarantee := by
    intro g g' n o s₁ s₂ r hinv hreq hok hx hne
    cases o with
    | service o => exact hP.guarantee hinv hreq hok (Op.exec_service_exec hx) hne
    | stream i o =>
      show P.rely g' s₁.svc s₂.svc
      rw [StreamOp.apply_svc (Op.exec_stream hx).2]
      exact hP.refl
  launch_rely := by
    intro m s₁ s₂ start hinv _ hl g
    show P.rely g s₁.svc s₂.svc
    rcases Launch.apply_svc (Launch.launch_eq_some hl).2 with heq | ⟨c, q, htake⟩
    · rw [heq]
      exact hP.refl
    · exact (hP.take hinv htake).2 g
  launch_inv := by
    intro m s₁ s₂ start hinv _ hl
    show P.inv s₂.svc
    rcases Launch.apply_svc (Launch.launch_eq_some hl).2 with heq | ⟨c, q, htake⟩
    · rw [heq]
      exact hinv
    · exact (hP.take hinv htake).1
  launch_start := by
    intro m s₁ s₂ g p _ hok hl hidle
    have happly := (Launch.launch_eq_some hl).2
    refine Launch.start_keeps (hcalls g) ?_ happly s₂ hidle
    rintro ⟨k, call, rfl⟩
    cases Launch.apply_started happly
    exact hdeliver hok k

end Lift

/-! ### A discipline of the service as one of the relay -/

section Stay

variable {Q α : Type} {D : Discipline ServiceOp ServiceOp.Res Q} {q : Q}

/-- A discipline of the steps of the service; those on a stream do not matter to it. -/
def Relay.follow (D : Discipline ServiceOp ServiceOp.Res Q) : Discipline Op Op.Res Q where
  may
    | q, .service o => D.may q o
    | _, .stream _ _ => True
  answer
    | .service o, r => D.answer o r
    | .stream _ _, _ => True
  next
    | q, .service o, r => D.next q o r
    | q, .stream _ _, _ => q

/-- The calls of the service begin and end in state `q`. -/
structure CallsStay (D : Discipline ServiceOp ServiceOp.Res Q) (q : Q) : Prop where
  uuid : Call.uuid.Stays D q
  getClient : ∀ sid c, (Call.getClient sid c).Stays D q
  handleAction : ∀ ctx a, (Call.handleAction ctx a).Stays D q
  deliverAppMessage : ∀ sid c msg, (Call.deliverAppMessage sid c msg).Stays D q

theorem Call.proc_stays {call : Call α} (h : call.Stays D q) :
    call.proc.Stays (Relay.follow D) q :=
  Prog.Follows.embed (fun h => h) (fun h => h) rfl h

theorem StreamOp.perform_stays {i : Nat} {o : StreamOp} :
    (Stream.perform i o).Stays (Relay.follow D) q :=
  .perform trivial fun _ => rfl

variable (hcalls : CallsStay D q)

include hcalls

theorem Stream.refuse_stays (i : Nat) (code message : String) :
    (Stream.refuse i code message).Stays (Relay.follow D) q :=
  .bind (Call.proc_stays hcalls.uuid) fun _ => .bind StreamOp.perform_stays fun _ => .ret _

theorem Stream.sendAction_stays (c : StreamConfig) (i : Nat) (a : CollabAction) :
    (Stream.sendAction c i a).Stays (Relay.follow D) q := by
  have hnote : ∀ joining e, (Stream.noteJoined i joining e).Stays (Relay.follow D) q := by
    intro joining e
    unfold Stream.noteJoined
    split
    · exact .onlyIf (.bind StreamOp.perform_stays fun _ =>
        .bind (Call.proc_stays (hcalls.getClient _ _)) fun _ => .onlyIf StreamOp.perform_stays)
    · exact .ret _
  refine .bind (Call.proc_stays (hcalls.handleAction _ a)) fun answer => ?_
  unfold Stream.sendAnswer
  split
  · exact .ret _
  · exact .ret _
  · exact .bind (hnote _ _) fun _ => .bind StreamOp.perform_stays fun _ => .ret _

theorem Stream.send_stays (c : StreamConfig) (i : Nat) (a : CollabAction) :
    (Stream.send c i a).Stays (Relay.follow D) q := by
  have hchecked : (Stream.sendChecked c i a).Stays (Relay.follow D) q := by
    refine .bind StreamOp.perform_stays fun joinedAs => ?_
    split
    · split
      · exact Stream.refuse_stays hcalls i _ _
      · exact Stream.sendAction_stays hcalls c i a
    · split
      · exact .ret _
      · exact Stream.sendAction_stays hcalls c i _
  unfold Stream.send
  split
  · exact hchecked
  · split
    · exact hchecked
    · refine .bind StreamOp.perform_stays fun allowed => ?_
      split
      · exact hchecked
      · exact Stream.refuse_stays hcalls i _ _

theorem Stream.leaveAndCleanup_stays (i : Nat) (reason : String) :
    (Stream.leaveAndCleanup i reason).Stays (Relay.follow D) q := by
  refine .bind StreamOp.perform_stays fun ids => ?_
  dsimp only
  split
  · exact .bind (Call.proc_stays (hcalls.handleAction _ _)) fun _ => .ret _
  · exact .ret _

theorem Stream.endSession_stays (i : Nat) (reason : String) :
    (Stream.endSession i reason).Stays (Relay.follow D) q := by
  refine .bind StreamOp.perform_stays fun first => ?_
  split
  · refine .bind (Stream.leaveAndCleanup_stays hcalls i reason) fun _ =>
      .bind (Call.proc_stays hcalls.uuid) fun _ => .bind ?_ fun _ =>
      .bind StreamOp.perform_stays fun _ => StreamOp.perform_stays
    exact .bind StreamOp.perform_stays fun _ => .ret _
  · exact .ret _

/-- Whatever a launch starts begins and ends where the calls of the service do. -/
theorem Launch.start_stays {m : Launch} {p : Proc Unit}
    (h : m.apply cfg s = some (s', some (g, p))) : p.Stays (Relay.follow D) q := by
  cases Launch.apply_started h with
  | send i a => exact .bind (Stream.send_stays hcalls _ i a) fun _ => .ret _
  | watchClose i =>
    exact .bind (.onlyIf StreamOp.perform_stays) fun _ => Stream.leaveAndCleanup_stays hcalls i _
  | expire i => exact Stream.endSession_stays hcalls i _
  | closeSend i k =>
    exact .bind (Stream.leaveAndCleanup_stays hcalls i _) fun _ => StreamOp.perform_stays
  | evict i c choice => exact Stream.endSession_stays hcalls i _
  | direct k call =>
    cases call with
    | handleAction ctx a =>
      exact .bind (Call.proc_stays (hcalls.handleAction ctx a)) fun _ => .ret _
    | deliverAppMessage sid c msg =>
      exact .bind (Call.proc_stays (hcalls.deliverAppMessage sid c msg)) fun _ => .ret _

end Stay

/-! ### Conditions on the steps of the service -/

/-- A condition on the steps of the service, for the moves of the relay. -/
def ServiceGuard (ok : Goroutine → ServiceOp → CollabService → Prop) (t : System) : Move → Prop
  | .run g _ =>
    match t.threads g with
    | some (.op (.service o) _) => ok g o t.shared.svc
    | _ => True
  | .launch _ => True

instance (ok : Goroutine → ServiceOp → CollabService → Prop) [∀ g o s, Decidable (ok g o s)]
    (t : System) (m : Move) : Decidable (ServiceGuard ok t m) := by
  unfold ServiceGuard
  split
  · split <;> infer_instance
  · infer_instance

theorem ServiceGuard.ok {ok : Goroutine → ServiceOp → CollabService → Prop} {t : System} {n : Nat}
    {o : ServiceOp} {k : o.Res → Proc Unit} (h : ServiceGuard ok t (.run g n))
    (hg : t.threads g = some (.op (.service o) k)) : ok g o t.shared.svc := by
  simpa only [ServiceGuard, hg] using h

theorem ServiceGuard.of_forall {ok : Goroutine → ServiceOp → CollabService → Prop} {t : System}
    {m : Move} (h : ∀ {g n} {o : ServiceOp} {k}, m = .run g n →
      t.threads g = some (.op (.service o) k) → ok g o t.shared.svc) : ServiceGuard ok t m := by
  unfold ServiceGuard
  split
  · split
    · rename_i hg
      exact h rfl hg
    · trivial
  · trivial

/-- What a goroutine does next. -/
def System.next? (t : System) (g : Goroutine) : Option Op := (t.threads g).bind Prog.next?

theorem System.next?_of_ne {t : System} {p : Proc Unit} {g' : Goroutine} (h : g' ≠ g) :
    System.next? ⟨s, Function.update t.threads g (left p)⟩ g' = t.next? g' := by
  simp [System.next?, h]

theorem System.next?_of_op {t : System} {o : Op} {k : o.Res → Proc Unit}
    (h : t.threads g = some (.op o k)) : t.next? g = some o := by
  rw [System.next?, h]
  rfl

theorem System.next?_of_none {t : System} (h : t.threads g = none) : t.next? g = none := by
  rw [System.next?, h]
  rfl

/-- A condition on the steps on stream `i`. -/
def StreamGuard (i : Nat) (ok : System → StreamOp → Prop) (t : System) : Move → Prop
  | .run g _ =>
    match t.next? g with
    | some (.stream j o) => j = i → ok t o
    | _ => True
  | .launch _ => True

instance (i : Nat) (ok : System → StreamOp → Prop) [∀ t o, Decidable (ok t o)] (t : System)
    (m : Move) : Decidable (StreamGuard i ok t m) := by
  unfold StreamGuard
  split
  · split <;> infer_instance
  · infer_instance

theorem StreamGuard.imp {i : Nat} {ok ok' : System → StreamOp → Prop} {t : System} {m : Move}
    (h : ∀ o, ok t o → ok' t o) (hm : StreamGuard i ok t m) : StreamGuard i ok' t m := by
  unfold StreamGuard at hm ⊢
  split
  · split
    · rename_i hnext
      simp only [hnext] at hm
      exact fun hj => h _ (hm hj)
    · trivial
  · trivial

/-- What the steps of the service keep along a run, and the bridges that take events out of
queues. -/
theorem service_invariant {C : System → Move → Prop} {I : CollabService → Prop} {t t' : System}
    {moves : List Move}
    (hstep : ∀ {t g n o k s a}, C t (.run g n) → t.threads g = some (.op (.service o) k) →
      I t.shared.svc → o.apply u g n t.shared.svc = some (s, a) → I s)
    (htake : ∀ {s s' c q}, I s → s.take? c = some (q, s') → I s')
    (hs : I t.shared.svc) (hguard : Machine.Guarded (System.step u cfg) C t moves)
    (h : System.run u cfg t moves = some t') : I t'.shared.svc := by
  refine Machine.invariant_guarded (I := fun t : System => I t.shared.svc) ?_ hs hguard h
  intro t m t' hs hm hmove
  cases m with
  | run g n =>
    obtain ⟨o, k, s, a, hg, hx, rfl⟩ := step_run hmove
    cases o with
    | service o => exact hstep hm hg hs (Op.exec_service hx).2.1
    | stream i o =>
      show I s.svc
      rw [StreamOp.apply_svc (Op.exec_stream hx).2]
      exact hs
  | launch m =>
    have hkept : ∀ {s start}, m.launch cfg t.shared = some (s, start) → I s.svc := by
      intro s start hl
      rcases Launch.apply_svc (Launch.launch_eq_some hl).2 with heq | ⟨c, q, hq⟩
      · rw [heq]
        exact hs
      · exact htake hs hq
    rcases step_launch hmove with ⟨s, hl, rfl⟩ | ⟨s, g, p, hl, -, rfl⟩
    · exact hkept hl
    · exact hkept hl

end MassRelay

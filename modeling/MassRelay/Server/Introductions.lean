import MassRelay.Lib.Spent
import MassRelay.Server.Membership
import MassRelay.Services.Introductions

/-!
# MassRelay.Server.Introductions

Whether a client knows whom it hears from.

A join that announces itself between the peers snapshot and the `AddClient` of another is in
neither the snapshot nor the queue of that one (`heardBeforeIntroduced`). What has to hold
when a client is added is that its snapshot has everyone who was announced in the room
(`Introduces`), and everyone of whom something is still to be heard there, which may be a
client that is leaving (`KnowsActors`). In the runs whose steps meet this, whoever is put an
event of an action was told before of the client that acts (`heard_after_introduced`). A
goroutine that has nothing more to say there is spent (`Op.SaysNothing`).
-/

namespace MassRelay

open Threads CollabService

variable {u : UuidSource} {cfg : Nat → StreamConfig} {maxPeers : Int} {moves : List Move}
variable {t : System}

/-! ### Who acts -/

namespace CollabService

/-- A goroutine acts for somebody only while it runs. -/
def actions : Protocol CollabService Goroutine ServiceOp Unit where
  inv _ := True
  rely g s s' := s'.acting g = s.acting g
  idle g s := s.acting g = none
  req _ _ _ := True
  ok _ _ _ _ := True
  okLaunch _ _ := True

theorem actions_wp {α : Type} {s : CollabService} {g : Goroutine} (p : Call α) :
    wp (ServiceOp.exec u) actions g p (fun _ _ => True) s := by
  induction p generalizing s with
  | ret a => trivial
  | op o k ih => exact fun _ _ _ => ⟨trivial, fun _ _ r _ _ => ⟨trivial, ih r⟩⟩

theorem actions_keeps {g : Goroutine} {o : ServiceOp} (ho : steady o = true) :
    Keeps (ServiceOp.exec u) actions g (fun s => s.acting g = none) (Call.perform o) := by
  refine Keeps.perform (fun hrely hs => hrely.trans hs) (fun _ _ => trivial) ?_
  exact fun _ hs _ hx => ⟨trivial, (Steady.of_apply ho (exec_eq_some hx).2).acting.trans hs⟩

theorem actions_callsKeep (g : Goroutine) : CallsKeep u actions g (actions.idle g) where
  stable hrely hs := hrely.trans hs
  uuid := actions_keeps rfl
  getClient := getClient_steadily actions_keeps
  handleAction ctx a s _ := by
    refine wp_bind (wp_mono (fun answer s₁ _ => ?_) (actions_wp (Call.route ctx a)))
    refine wp_bind (wp_op (A := fun _ => True) trivial (fun _ _ => trivial) (fun _ _ => trivial) ?_)
    exact fun _ _ _ hx => ⟨trivial, (apply_effect (exec_eq_some hx).2).acting⟩

theorem actions_serviceSound : ServiceSound u actions where
  refl := rfl
  trans h h' := h'.trans h
  idle_stable h hs := h.trans hs
  guarantee _ _ _ hx hne := ((apply_effect (exec_eq_some hx).2).rely hne).acting
  take _ h := ⟨trivial, fun _ => (Rely.take? (u := u) h).acting⟩

end CollabService

theorem actions_sound : Sound (Op.exec u) (Launch.launch cfg) (Relay.lift True actions) :=
  actions_serviceSound.lift actions_callsKeep fun _ _ => deliverAppMessage_steadily actions_keeps

theorem actions_init (maxPeers : Int) :
    Holds (Op.exec u) (Relay.lift True actions) (System.init maxPeers) :=
  .init trivial fun _ => rfl

theorem actions_ok {m : Move} : (Relay.lift True actions).Ok t m := by
  cases m with
  | run g n =>
    intro o _ _
    cases o <;> trivial
  | launch m => cases m <;> trivial

/-! ### Who can still be heard -/

/-- The steps an action may have left once it has delivered its events. -/
def CollabService.saysNothing : ServiceOp → Bool
  | .runlock _ | .handled => true
  | o => plain o

/-- The same, with what comes after it on the stream. -/
def Op.SaysNothing : Op → Prop
  | .service o => saysNothing o = true
  | .stream _ _ => True

/-- A client is added with a snapshot that has every client for which an action in the room
may still deliver something. -/
def KnowsActors (t : System) : Move → Prop
  | .run g _ =>
    match t.threads g with
    | some (.op (.service (.addClient r _ _ _ peers)) _) =>
      ∀ g' p x, t.threads g' = some p → ¬ p.All Op.SaysNothing →
        t.shared.svc.acting g' = some (x, r) → x ∈ peers.map Prod.fst
    | _ => True
  | .launch _ => True

/-- What the proof has at each move of the runs considered. -/
structure Introducing (u : UuidSource) (cfg : Nat → StreamConfig) (t : System) (m : Move) :
    Prop where
  members : Holds (Op.exec u) (Relay.membership u cfg) t
  actions : Holds (Op.exec u) (Relay.lift True actions) t
  introduces : ServiceGuard Introduces t m
  actors : KnowsActors t m

theorem Introducing.heard {g g' : Goroutine} {n : Nat} {o : ServiceOp} {k : o.Res → Proc Unit}
    {p : Proc Unit} (hm : Introducing u cfg t (.run g n))
    (hg : t.threads g = some (.op (.service o) k)) (hg' : t.threads g' = some p)
    (hp : ¬ p.All Op.SaysNothing) {r : RoomRef} {ctx : Ctx} {join : JoinRoom} {sid : String}
    {peers : List (String × PeerInfo)} {x : String} (ho : o = .addClient r ctx join sid peers)
    (hacting : t.shared.svc.acting g' = some (x, r)) : x ∈ peers.map Prod.fst := by
  subst ho
  have hactors := hm.actors
  simp only [KnowsActors, hg] at hactors
  exact hactors g' p x hg' hp hacting

theorem acquaints_of_saysNothing {g : Goroutine} {o : ServiceOp} {s : CollabService}
    (h : saysNothing o = true) : Acquaints u g o s := by
  cases o <;> trivial

theorem hearsKnown_of_acquaints {g : Goroutine} {o : ServiceOp} {s : CollabService}
    (h : Acquaints u g o s) : HearsKnown g o s := by
  cases o <;> first | exact h | trivial

/-- What a launch does to the service. -/
theorem Launch.introRely {m : Launch} {s s' : Relay} {start : Option (Goroutine × Proc Unit)}
    (hl : m.launch cfg s = some (s', start)) :
    (Introduced u s.svc → Introduced u s'.svc) ∧ ∀ g, IntroRely u g s.svc s'.svc := by
  rcases Launch.apply_svc (Launch.launch_eq_some hl).2 with heq | ⟨c, q, htake⟩
  · rw [heq]
    exact ⟨fun hs => hs, fun g => .refl u g _⟩
  · exact ⟨fun hs => hs.take? htake, fun g => .take? htake⟩

theorem introductions_callsKeep (g : Goroutine) :
    CallsKeep u (introductions u) g ((introductions u).idle g) where
  stable hrely hs := hrely.acting.trans hs
  uuid := idle_keeps rfl
  getClient := getClient_steadily idle_keeps
  handleAction _ _ _ _ := actsForNobody_wp

theorem introductions_sound : SoundUntil (Op.exec u) (Launch.launch cfg)
    (Relay.lift True (introductions u)) Op.SaysNothing (Introducing u cfg) where
  refl := .refl u _ _
  trans h h' := h.trans h'
  ok {t g n o k} hm hg := by
    cases o with
    | service o => exact hm.introduces.ok hg
    | stream i o => trivial
  guarantee {t g g' n o k s r p} hinv hm hg hx hne hg' hp := by
    cases o with
    | service o =>
      have hreq := hm.members.req Relay.membership_sound hg
      exact .of_apply hinv.toBase hreq (hm.introduces.ok hg)
        (fun ho hacting => hm.heard hg hg' hp ho hacting) (Op.exec_service hx).2.1 hne
    | stream i o =>
      show IntroRely u g' t.shared.svc s.svc
      rw [StreamOp.apply_svc (Op.exec_stream hx).2]
      exact .refl u g' _
  spent {t g n o k s r} hinv hm hg ho hx := by
    cases o with
    | service o =>
      exact hinv.apply (acquaints_of_saysNothing ho) (hm.introduces.ok hg) (Op.exec_service hx).2.1
    | stream i o =>
      show Introduced u s.svc
      rw [StreamOp.apply_svc (Op.exec_stream hx).2]
      exact hinv
  launch_rely _ _ hl := (Launch.introRely hl).2
  launch_inv hinv _ hl := (Launch.introRely hl).1 hinv
  launch_start {t m s g p} _ hm hl hg := by
    have hidle : s.svc.acting g = none :=
      ((Launch.introRely (u := u) hl).2 g).acting.trans (hm.actions.idle hg)
    refine wp_mono (fun _ _ _ => trivial) (Launch.start_keeps (introductions_callsKeep g) ?_
      (Launch.launch_eq_some hl).2 s hidle)
    exact fun _ => deliverAppMessage_steadily idle_keeps

/-- In the runs whose every join meets its snapshot, an action puts its events in the queues
of clients that know whom they come from: the client that acts is among the peers that the
`RoomJoined` of the receiver names, or a `PeerJoined` of it was put in the queue before. -/
theorem heard_after_introduced
    (hguard : Machine.Guarded (System.step u cfg)
      (fun t m => ServiceGuard Introduces t m ∧ KnowsActors t m) (System.init maxPeers) moves) :
    Machine.Guarded (System.step u cfg) (ServiceGuard HearsKnown) (System.init maxPeers) moves ∧
    ∀ t, System.run u cfg (System.init maxPeers) moves = some t →
      ∀ i rj, rj ∈ (t.shared.streams i).answered →
        (t.shared.svc.clientAt rj.clientId).snapshot = rj.room.peers := by
  refine ⟨?_, fun t h i rj hrj => ((Relay.membership_holds h).inv.answered hrj).snapshot⟩
  have hintroducing : Machine.Guarded (System.step u cfg) (Introducing u cfg)
      (System.init maxPeers) moves := by
    refine hguard.of_invariant (I := fun t => Holds (Op.exec u) (Relay.membership u cfg) t ∧
      Holds (Op.exec u) (Relay.lift True actions) t) ?_ ?_
      ⟨Relay.membership_init maxPeers, actions_init maxPeers⟩
    · rintro t m t' ⟨hmembers, hactions⟩ - hmove
      exact ⟨hmembers.step Relay.membership_sound Relay.membership_ok hmove,
        hactions.step actions_sound actions_ok hmove⟩
    · exact fun t m ht hm => ⟨ht.1, ht.2, hm.1, hm.2⟩
  have hsound : SoundUntil (Op.exec u) (Launch.launch cfg) (Relay.lift True (introductions u))
      Op.SaysNothing (Introducing u cfg) := introductions_sound
  refine HoldsUntil.guarded hsound ?_ (.init (Introduced.new maxPeers)) hintroducing
  intro t m ht _
  refine ServiceGuard.of_forall fun {g n o k} _ hg => ?_
  by_cases ho : saysNothing o = true
  · exact hearsKnown_of_acquaints (acquaints_of_saysNothing (u := u) ho)
  · exact hearsKnown_of_acquaints (ht.req hsound hg ho)

/-- The first stream has taken its snapshot of `s1` when the second joins; then it goes on, and
the second sends its presence. -/
def joinAfterSnapshot : List Move :=
  List.flatten [
    .launch (.send 0 { action := some (.join { sessionId := "s1" }) }) ::
      List.replicate 5 (.run (.send 0) 0),
    .launch (.send 1 { action := some (.join { sessionId := "s1" }) }) ::
      List.replicate 19 (.run (.send 1) 0),
    List.replicate 16 (.run (.send 0) 0),
    .launch (.send 1 { action := some (.presence ⟨true, "bob"⟩) }) ::
      List.replicate 5 (.run (.send 1) 0)]

/-- The presence is put in the queue of a client that was never told of the sender. -/
theorem heardBeforeIntroduced : ∃ t t',
    System.run .unary (fun _ => {}) (System.init 10) joinAfterSnapshot = some t ∧
    ¬ ServiceGuard HearsKnown t (.run (.send 1) 0) ∧
    System.step .unary (fun _ => {}) t (.run (.send 1) 0) = some t' ∧
    ∃ q ∈ (t'.shared.svc.clientAt "uuuu").enqueued, q.event.isPeerJoined = false ∧
      t'.shared.svc.acting (.send 1) = some (q.event.fromClientId, 0) ∧
      ¬ (t'.shared.svc.clientAt "uuuu").Knows q.event.fromClientId := by
  have hrun : (System.run .unary (fun _ => {}) (System.init 10) joinAfterSnapshot).any (fun t =>
      ¬ ServiceGuard HearsKnown t (.run (.send 1) 0) ∧
      (System.step .unary (fun _ => {}) t (.run (.send 1) 0)).any fun t' =>
        (t'.shared.svc.clientAt "uuuu").enqueued.any fun q => q.event.isPeerJoined = false ∧
          t'.shared.svc.acting (.send 1) = some (q.event.fromClientId, 0) ∧
          ¬ (t'.shared.svc.clientAt "uuuu").Knows q.event.fromClientId) = true := by
    decide +kernel
  obtain ⟨t, ht, hstate⟩ := (Option.any_eq_true _ _).mp hrun
  obtain ⟨hnot, hstep⟩ := of_decide_eq_true hstate
  obtain ⟨t', ht', hqueue⟩ := (Option.any_eq_true _ _).mp hstep
  obtain ⟨q, hq, hheard⟩ := List.any_eq_true.mp hqueue
  exact ⟨t, t', ht, hnot, ht', q, hq, of_decide_eq_true hheard⟩

/-- Two streams join `s1` one after the other, and the second sends its presence. -/
def joinThenPresence : List Move :=
  List.flatten [
    .launch (.send 0 { action := some (.join { sessionId := "s1" }) }) ::
      List.replicate 19 (.run (.send 0) 0),
    .launch (.send 1 { action := some (.join { sessionId := "s1" }) }) ::
      List.replicate 21 (.run (.send 1) 0),
    .launch (.send 1 { action := some (.presence ⟨true, "bob"⟩) }) ::
      List.replicate 6 (.run (.send 1) 0)]

/-- No join adds a client while one of the goroutines `gs` acts. -/
def AddsInQuiet (gs : List Goroutine) (_ : Goroutine) (o : ServiceOp) (s : CollabService) : Prop :=
  match o with
  | .addClient .. => ∀ g ∈ gs, s.acting g = none
  | _ => True

instance (gs : List Goroutine) (g : Goroutine) (o : ServiceOp) (s : CollabService) :
    Decidable (AddsInQuiet gs g o s) :=
  decidable_of_iff ((match o with
    | .addClient .. => gs.all fun g => (s.acting g).isNone
    | _ => true) = true) (by
      unfold AddsInQuiet
      split
      · simp only [List.all_eq_true, Option.isNone_iff_eq_none]
      · exact iff_of_true rfl trivial)

/-- Then a snapshot misses nobody who acts. -/
theorem knowsActors_of_quiet
    (hguard : Machine.Guarded (System.step u cfg) (ServiceGuard (AddsInQuiet (startedBy moves)))
      (System.init maxPeers) moves) :
    Machine.Guarded (System.step u cfg) KnowsActors (System.init maxPeers) moves := by
  have hidle : Machine.Guarded (System.step u cfg)
      (fun t _ => ∀ g, g ∉ startedBy moves → t.threads g = none) (System.init maxPeers) moves :=
    (never_started (fun m hm g p hg hstarted => hg (mem_startedBy hm hstarted)) fun _ _ => rfl).1
  refine (hguard.and hidle).imp ?_
  rintro t m ⟨hquiet, hidle⟩
  cases m with
  | launch m => trivial
  | run g n =>
    simp only [KnowsActors]
    split
    · rename_i hg
      intro g' p x hg' _ hacting
      have hquiet : ∀ g ∈ startedBy moves, t.shared.svc.acting g = none := hquiet.ok hg
      by_cases hstarted : g' ∈ startedBy moves
      · simp [hquiet g' hstarted] at hacting
      · simp [hidle g' hstarted] at hg'
    · trivial

/-- The first client has the presence of the second in its queue. -/
theorem heard_after_introduced_presence : ∃ t,
    System.run .unary (fun _ => {}) (System.init 10) joinThenPresence = some t ∧
    Machine.Guarded (System.step .unary fun _ => {}) (ServiceGuard HearsKnown) (System.init 10)
      joinThenPresence ∧
    ∃ q ∈ (t.shared.svc.clientAt "u").enqueued, q.event.isPeerJoined = false ∧
      q.event.fromClientId = "uuuu" := by
  have hrun : (Machine.execIf (System.step .unary fun _ => {}) (fun t m =>
      ServiceGuard Introduces t m ∧ ServiceGuard (AddsInQuiet (startedBy joinThenPresence)) t m)
      (System.init 10) joinThenPresence).any (fun t =>
        (t.shared.svc.clientAt "u").enqueued.any fun q => q.event.isPeerJoined = false ∧
          q.event.fromClientId = "uuuu") = true := by
    decide +kernel
  obtain ⟨t, ht, hqueue⟩ := (Option.any_eq_true _ _).mp hrun
  obtain ⟨hguard, ht⟩ := Machine.execIf_eq_some ht
  obtain ⟨q, hq, hheard⟩ := List.any_eq_true.mp hqueue
  have hactors := knowsActors_of_quiet (hguard.imp fun _ _ h => h.2)
  exact ⟨t, ht, (heard_after_introduced ((hguard.imp fun _ _ h => h.1).and hactors)).1, q, hq,
    of_decide_eq_true hheard⟩

end MassRelay

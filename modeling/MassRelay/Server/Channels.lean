import MassRelay.Server.Membership

/-!
# MassRelay.Server.Channels

The queues of the clients are used while they are open.

A put on a closed `SendCh`, or closing one again, brings the process down. A session that
ends closes the queues of its clients and unregisters them in one section under the lock of
the room, and whoever delivers to a client holds that lock for reading, and found the client
in the room. So whoever is in a room has an open queue (`Housed`), the queues that are put
to or closed are those of clients in a room, and the service stays up
(`channels_closedSafely`), however its calls overlap.
-/

namespace MassRelay

open Threads CollabService

variable {u : UuidSource} {cfg : Nat → StreamConfig} {s s' : CollabService} {g : Goroutine}

/-- A client that is about to get an event has an open queue. -/
theorem put_opened {t : System} {o : ServiceOp} {k : o.Res → Proc Unit}
    (hmembers : Holds (Op.exec u) (Relay.membership u cfg) t) (hs : Housed u t.shared.svc)
    (hg : t.threads g = some (.op (.service o) k)) (c : String) (e : CollabEvent) (call : Nat)
    (ho : o = .put c e call) : (t.shared.svc.clientAt c).sendCh.closed = false := by
  subst ho
  obtain ⟨r, hreading, -⟩ := hmembers.req Relay.membership_sound hg
  exact hs.opened (hreading.clients c List.mem_cons_self)

/-- What every move of a run keeps. -/
theorem channels_move {t t' : System} {m : Move}
    (hmembers : Holds (Op.exec u) (Relay.membership u cfg) t)
    (hs : Housed u t.shared.svc ∧ t.shared.svc.panicked = false)
    (h : System.step u cfg t m = some t') :
    Housed u t'.shared.svc ∧ t'.shared.svc.panicked = false := by
  obtain ⟨hhoused, hup⟩ := hs
  cases m with
  | run g n =>
    obtain ⟨o, k, s, a, hg, hx, rfl⟩ := step_run h
    cases o with
    | service o =>
      have happly := (Op.exec_service hx).2.1
      exact ⟨hhoused.apply happly, hhoused.panicked hup (put_opened hmembers hhoused hg) happly⟩
    | stream i o =>
      have hsvc := StreamOp.apply_svc (Op.exec_stream hx).2
      exact ⟨hsvc ▸ hhoused, hsvc ▸ hup⟩
  | launch m =>
    have hkept : ∀ {s start}, m.launch cfg t.shared = some (s, start) →
        Housed u s.svc ∧ s.svc.panicked = false := by
      intro s start hl
      rcases Launch.apply_svc (Launch.launch_eq_some hl).2 with heq | ⟨c, q, htake⟩
      · exact ⟨heq ▸ hhoused, heq ▸ hup⟩
      · exact ⟨hhoused.take? htake, (take?_panicked htake).trans hup⟩
    rcases step_launch h with ⟨s, hl, rfl⟩ | ⟨s, g, p, hl, -, rfl⟩
    · exact hkept hl
    · exact hkept hl

/-- What holds after a run. -/
theorem channels_run {maxPeers : Int} {moves : List Move} {t : System}
    (h : System.run u cfg (System.init maxPeers) moves = some t) :
    Holds (Op.exec u) (Relay.membership u cfg) t ∧ Housed u t.shared.svc ∧
      t.shared.svc.panicked = false :=
  Relay.membership_sound.invariant (C := fun _ _ => True)
    (I := fun t => Housed u t.shared.svc ∧ t.shared.svc.panicked = false)
    (fun _ => Relay.membership_ok) (fun hmembers _ hs hmove => channels_move hmembers hs hmove)
    (Relay.membership_init maxPeers) ⟨.new maxPeers, rfl⟩
    (Machine.guarded_of_forall fun _ _ _ => trivial) h

/-- In every run, however the calls of the service overlap, no put on a closed queue and no
second close has brought it down, every client of a room has an open queue, and so has every
client that is about to get an event. -/
theorem channels_closedSafely {maxPeers : Int} {moves : List Move} {t : System}
    (h : System.run u cfg (System.init maxPeers) moves = some t) :
    t.shared.svc.panicked = false ∧
      (∀ r, ∀ c ∈ (t.shared.svc.roomAt r).clients,
        (t.shared.svc.clientAt c).sendCh.closed = false) ∧
      ∀ g c e k, t.next? g = some (.service (.put c e k)) →
        (t.shared.svc.clientAt c).sendCh.closed = false := by
  obtain ⟨hmembers, hhoused, hup⟩ := channels_run h
  refine ⟨hup, fun r c hc => hhoused.opened hc, fun g c e k hnext => ?_⟩
  obtain ⟨p, hg, hp⟩ := Option.bind_eq_some_iff.mp hnext
  cases p with
  | ret a => simp [Prog.next?] at hp
  | op o rest =>
    obtain rfl := Option.some.inj hp
    exact put_opened hmembers hhoused hg c e k rfl

/-- An owner and a viewer join `s1`. The owner leaves while the viewer moves its cursor: the
leave waits for the broadcast, and then ends the session. -/
def endDuringBroadcast : List Move :=
  List.flatten [
    .launch (.direct 0 (.handleAction none
      { action := some (.join { sessionId := "s1", isOwner := true }) })) ::
      List.replicate 14 (.run (.direct 0) 0),
    .launch (.direct 1 (.handleAction none { action := some (.join { sessionId := "s1" }) })) ::
      List.replicate 15 (.run (.direct 1) 0),
    [.launch (.direct 0 (.handleAction none
      { clientId := "u", action := some (.leave ⟨"bye"⟩) })),
     .launch (.direct 1 (.handleAction none
      { clientId := "uuuu", action := some (.cursorUpdate ⟨0, 0, "pen", "up", []⟩) }))],
    List.replicate 3 (.run (.direct 1) 0),
    List.replicate 2 (.run (.direct 0) 0),
    List.replicate 5 (.run (.direct 1) 0),
    List.replicate 11 (.run (.direct 0) 0)]

theorem channels_endDuringBroadcast : ∃ t,
    System.run .unary (fun _ => {}) (System.init 10) endDuringBroadcast = some t ∧
    (t.shared.svc.clientAt "uuuu").sendCh.closed = true ∧ t.shared.svc.panicked = false := by
  have hrun : (System.run .unary (fun _ => {}) (System.init 10) endDuringBroadcast).any (fun t =>
      (t.shared.svc.clientAt "uuuu").sendCh.closed = true) = true := by
    decide +kernel
  obtain ⟨t, ht, hclosed⟩ := (Option.any_eq_true _ _).mp hrun
  exact ⟨t, ht, of_decide_eq_true hclosed, (channels_closedSafely ht).1⟩

end MassRelay

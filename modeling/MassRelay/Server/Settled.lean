import MassRelay.Server.Progress

/-!
# MassRelay.Server.Settled

What has arrived when the relay has come to rest.

A relay that can make no move of its own is quiet (`quiet_of_stuck`), and then both queues on the
way from a room to a receiver are empty. A client whose bridge is still there was not marked slow,
so nothing that was sent to it was skipped either: every event of every `deliver` call for it has
been received, once and in order (`settled_delivers`).
-/

namespace MassRelay

open Threads CollabService Relation

variable {u : UuidSource} {cfg : Nat → StreamConfig} {maxPeers : Int} {moves : List Move}
variable {t t' : System} {i : Nat} {c : String}

/-- A bridge that is still there waits for its client. -/
theorem System.Quiet.forwarding (hquiet : t.Quiet)
    (hlive : ((t.shared.streams i).bridges c).live = true) :
    (t.shared.streams i).bridges c = .forwarding ∧ (t.shared.svc.clientAt c).sendCh.buf = [] ∧
      (t.shared.svc.clientAt c).slow = false := by
  obtain ⟨hbridge, -, hbuf, -, hslow⟩ := hquiet.waiting (i := i) (c := c)
    (fun hoff => by simp [hoff, Bridge.live] at hlive)
    fun hended => by simp [hended, Bridge.live] at hlive
  exact ⟨hbridge, hbuf, hslow⟩

/-- Its stream has returned all that came into the queue of the client. -/
theorem System.Quiet.returned (hquiet : t.Quiet) (hup : t.shared.crashed = false)
    (h : System.run u cfg (System.init maxPeers) moves = some t)
    (hlive : ((t.shared.streams i).bridges c).live = true) :
    roomItems c (t.shared.streams i).returned = (t.shared.svc.clientAt c).enqueued := by
  have hforwards := forwards_run h
  obtain ⟨hbridge, hbuf, -⟩ := hquiet.forwarding hlive
  have hqueued : (t.shared.streams i).returned = (t.shared.streams i).queued := by
    rw [← hforwards.received i, hquiet.drained i, List.append_nil]
  have hpassed := hforwards.passed (panicked_of_crashed hup) i c
  rw [hbridge] at hpassed
  have htaken : roomItems c (t.shared.streams i).queued = (t.shared.svc.clientAt c).taken := hpassed
  rw [hqueued, htaken, (deliveries_holds h).inv.1.queue c, hbuf, List.append_nil]

/-- Nothing that was sent to the client is missing in its queue. -/
theorem System.Quiet.sent (hquiet : t.Quiet) (hup : t.shared.crashed = false)
    (h : System.run u cfg (System.init maxPeers) moves = some t)
    (hslow : (t.shared.svc.clientAt c).slow = false) (g : Goroutine) :
    t.shared.svc.queuedFrom g c = t.shared.svc.sentTo g c := by
  rcases (deliveries_holds h).idle (hquiet.idle g) with hpanicked | hsynced
  · simp [Relay.crashed, hpanicked] at hup
  · rw [← hsynced.synced (Or.inl hslow), List.append_nil]

/-- No event is lost, however the goroutines, the bridges and the receivers take turns. From every
state that a run reaches the relay comes to rest, and wherever it does, every stream that still
has a bridge for a client has returned all that came into the client's queue, in that order,
which of every goroutine is all that it sent to the client. -/
theorem settled_delivers (h : System.run u cfg (System.init maxPeers) moves = some t) :
    (∃ t', ReflTransGen (System.GoesOn u cfg) t t' ∧ ∀ t'', ¬ System.GoesOn u cfg t' t'') ∧
      ∀ t', ReflTransGen (System.GoesOn u cfg) t t' → (∀ t'', ¬ System.GoesOn u cfg t' t'') →
        t'.shared.crashed = false → ∀ i c, ((t'.shared.streams i).bridges c).live = true →
          roomItems c (t'.shared.streams i).returned = (t'.shared.svc.clientAt c).enqueued ∧
          ∀ g, (queuedBy g (roomItems c (t'.shared.streams i).returned)).map (·.event) =
            t'.shared.svc.sentTo g c := by
  refine ⟨Machine.rests_of_acc (relay_descends h), fun t' hgo hstuck hup i c hlive => ?_⟩
  obtain ⟨moves', h'⟩ := Machine.exec_of_moves (fun ⟨m, _, hm⟩ => ⟨m, hm⟩) h hgo
  have hquiet := quiet_of_stuck h' hup hstuck
  have hreturned := hquiet.returned hup h' hlive
  refine ⟨hreturned, fun g => ?_⟩
  rw [hreturned]
  exact hquiet.sent hup h' (hquiet.forwarding hlive).2.2 g

theorem settled_delivers_joinUnderWay : ∃ t,
    System.run .unary (fun _ => {}) (System.init 10) joinUnderWay = some t ∧
    (t.threads (.send 1)).isSome ∧
    ∃ t', ReflTransGen (System.GoesOn .unary fun _ => {}) t t' ∧
      ∀ t'', ¬ System.GoesOn .unary (fun _ => {}) t' t'' := by
  have hrun : (System.run .unary (fun _ => {}) (System.init 10) joinUnderWay).any (fun t =>
      (t.threads (.send 1)).isSome) = true := by
    decide +kernel
  obtain ⟨t, ht, hsome⟩ := (Option.any_eq_true _ _).mp hrun
  exact ⟨t, ht, hsome, (settled_delivers ht).1⟩

end MassRelay

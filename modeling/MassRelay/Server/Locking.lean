import MassRelay.Server.Lift
import MassRelay.Services.Locking

/-!
# MassRelay.Server.Locking

The locks of the rooms, in the relay.

Whatever runs in the relay is made of a few calls of the service and of steps on streams
(`Composes`), and a goroutine holds no lock of a room between them (`Relay.locking`). So one
that holds one is in the middle of a broadcast, and has a step to make that does not wait
(`reader_delivers`).
-/

namespace MassRelay

open Threads CollabService

variable {u : UuidSource} {cfg : Nat → StreamConfig} {s s' : Relay} {g : Goroutine}

/-! ### What programs are made of -/

/-- A property of programs that every launch starts one with: it holds of the calls that
streams and embedding servers make and of steps on streams, and of what is composed of
them. -/
structure Composes (X : ∀ {α : Type}, Proc α → Prop) : Prop where
  ret : ∀ {α : Type} (a : α), X (.ret a : Proc α)
  bind : ∀ {α β : Type} {p : Proc α} {f : α → Proc β}, X p → (∀ a, X (f a)) → X (p >>= f)
  step : ∀ i o, X (Stream.perform i o)
  uuid : X Call.uuid.proc
  getClient : ∀ sid c, X (Call.getClient sid c).proc
  handleAction : ∀ ctx a, X (Call.handleAction ctx a).proc
  deliverAppMessage : ∀ sid c msg, X (Call.deliverAppMessage sid c msg).proc

namespace Composes

variable {X : ∀ {α : Type}, Proc α → Prop} (h : Composes X)

include h

theorem onlyIf {c : Prop} [Decidable c] {p : Proc Unit} (hp : X p) : X (Prog.onlyIf c p) := by
  unfold Prog.onlyIf
  split
  · exact hp
  · exact h.ret ()

theorem reply (i : Nat) (e : CollabEvent) : X (Stream.reply i e) :=
  h.bind (h.step i _) fun _ => h.ret _

theorem refuse (i : Nat) (code message : String) : X (Stream.refuse i code message) :=
  h.bind h.uuid fun _ => h.reply i _

theorem sendAction (c : StreamConfig) (i : Nat) (a : CollabAction) :
    X (Stream.sendAction c i a) := by
  refine h.bind (h.handleAction _ a) fun answer => ?_
  cases answer with
  | err _ | nothing => exact h.ret _
  | event e =>
    refine h.bind ?_ fun _ => h.reply i e
    unfold Stream.noteJoined
    split
    · exact h.onlyIf (h.bind (h.step i _) fun _ =>
        h.bind (h.getClient _ _) fun _ => h.onlyIf (h.step i _))
    · exact h.ret _

theorem send (c : StreamConfig) (i : Nat) (a : CollabAction) : X (Stream.send c i a) := by
  have hchecked : X (Stream.sendChecked c i a) := by
    refine h.bind (h.step i _) fun joinedAs => ?_
    split
    · split
      · exact h.refuse i _ _
      · exact h.sendAction c i a
    · split
      · exact h.ret _
      · exact h.sendAction c i _
  unfold Stream.send
  split
  · exact hchecked
  · split
    · exact hchecked
    · refine h.bind (h.step i _) fun allowed => ?_
      split
      · exact hchecked
      · exact h.refuse i _ _

theorem leaveAndCleanup (i : Nat) (reason : String) : X (Stream.leaveAndCleanup i reason) := by
  refine h.bind (h.step i _) fun ids => ?_
  dsimp only
  split
  · exact h.bind (h.handleAction _ _) fun _ => h.ret _
  · exact h.ret _

theorem endSession (i : Nat) (reason : String) : X (Stream.endSession i reason) := by
  refine h.bind (h.step i _) fun first => ?_
  split
  · exact h.bind (h.leaveAndCleanup i reason) fun _ => h.bind h.uuid fun _ =>
      h.bind (h.reply i _) fun _ => h.bind (h.step i _) fun _ => h.step i _
  · exact h.ret _

/-- So it holds of whatever a launch starts. -/
theorem start {m : Launch} {p : Proc Unit} (hm : m.apply cfg s = some (s', some (g, p))) :
    X p := by
  cases Launch.apply_started hm with
  | send i a => exact h.bind (h.send _ i a) fun _ => h.ret _
  | watchClose i => exact h.bind (h.onlyIf (h.step i _)) fun _ => h.leaveAndCleanup i _
  | expire i => exact h.endSession i _
  | closeSend i k => exact h.bind (h.leaveAndCleanup i _) fun _ => h.step i _
  | evict i c choice => exact h.endSession i _
  | direct k call =>
    cases call with
    | handleAction ctx a => exact h.bind (h.handleAction ctx a) fun _ => h.ret _
    | deliverAppMessage sid c msg => exact h.bind (h.deliverAppMessage sid c msg) fun _ => h.ret _

end Composes

/-! ### The locks -/

/-- How goroutines share the locks of the rooms: between the calls of the service they hold
none. -/
def Relay.locking : Protocol Relay Goroutine Op Launch where
  inv _ := True
  rely g s s' := CollabService.locking.rely g s.svc s'.svc
  idle g s := Free g s.svc
  req g o s :=
    match o with
    | .service o => CollabService.locking.req g o s.svc
    | .stream _ _ => Free g s.svc
  ok _ _ _ _ := True
  okLaunch _ _ := True

theorem Call.proc_free {α : Type} {call : Call α}
    (h : Keeps (ServiceOp.exec u) CollabService.locking g (Free g) call) :
    Keeps (Op.exec u) Relay.locking g (fun s => Free g s.svc) call.proc := by
  have hpart : Part (ServiceOp.exec u) CollabService.locking (Op.exec u) Relay.locking .service
      (fun _ r => r) Relay.svc g :=
    ⟨fun h => h, fun _ => trivial, fun h => h, fun _ _ => trivial, Op.exec_service_exec,
      fun _ _ _ _ _ => trivial⟩
  intro s hs
  exact wp_mono (fun _ _ hs => hs.1) (wp_embed (B := fun _ => True) hpart (fun _ _ => trivial)
    (fun _ _ _ _ => trivial) (h s.svc hs) trivial)

theorem locking_composes (u : UuidSource) (g : Goroutine) :
    Composes fun p => Keeps (Op.exec u) Relay.locking g (fun s => Free g s.svc) p where
  ret a := .ret a
  bind hp hf := .bind hp hf
  step i o := by
    refine .perform (fun hrely hs => Free.rely hrely hs) (fun _ hs => hs) ?_
    intro n s₁ s₂ a _ hs _ hx
    rw [StreamOp.apply_svc (Op.exec_stream hx).2]
    exact ⟨trivial, hs⟩
  uuid := Call.proc_free (unlocked_keeps (by simp))
  getClient sid c := by
    refine Call.proc_free (.bind (unlocked_keeps (by simp)) fun room => ?_)
    cases room with
    | none => exact .ret _
    | some r => exact unlocked_keeps (by simp)
  handleAction ctx a := Call.proc_free (handleAction_free ctx a)
  deliverAppMessage sid c msg := Call.proc_free (deliverAppMessage_free sid c msg)

theorem locking_sound : Sound (Op.exec u) (Launch.launch cfg) Relay.locking where
  refl _ h := h
  trans h h' r hr := h r (h' r hr)
  idle_stable h hs := Free.rely h hs
  guarantee := by
    intro g g' n o s₁ s₂ a _ _ _ hx hne r hr
    cases o with
    | service o =>
      rcases apply_readers (Op.exec_service hx).2.1 hr with hr | ⟨rfl, -⟩
      · exact hr
      · exact absurd rfl hne
    | stream i o => rwa [StreamOp.apply_svc (Op.exec_stream hx).2] at hr
  launch_rely := by
    intro m s₁ s₂ start _ _ hl g r hr
    rcases Launch.apply_svc (Launch.launch_eq_some hl).2 with heq | ⟨c, q, htake⟩
    · rwa [heq] at hr
    · rwa [take?_roomAt htake] at hr
  launch_inv _ _ _ := trivial
  launch_start _ _ hl hidle :=
    (locking_composes _ _).start (Launch.launch_eq_some hl).2 _ hidle

variable {maxPeers : Int} {moves : List Move} {t : System}

theorem locking_holds (h : System.run u cfg (System.init maxPeers) moves = some t) :
    Holds (Op.exec u) Relay.locking t := by
  refine locking_sound.holds (.init trivial fun g r hr => ?_)
    (Machine.guarded_of_forall fun m _ t => ?_) h
  · simp [newCollabService] at hr
  · cases m with
    | run g n => exact fun _ _ _ => trivial
    | launch m => trivial

/-- Whoever reads a room is in the middle of a broadcast there. -/
theorem reader_delivers {r : RoomRef} (ht : Holds (Op.exec u) Relay.locking t)
    (hg : g ∈ (t.shared.svc.roomAt r).readers) :
    ∃ o k, t.threads g = some (.op (.service o) k) ∧
      (delivering o = true ∨ o = .runlock r) := by
  cases hp : t.threads g with
  | none => exact absurd hg (ht.idle hp r)
  | some p =>
    obtain ⟨⟨o, k, rfl⟩, -⟩ := ht.running hp
    have hreq := ht.req (@locking_sound _ fun _ => {}) hp
    cases o with
    | service o => exact ⟨o, k, rfl, hreq r hg⟩
    | stream i o => exact absurd hg (hreq r)

end MassRelay

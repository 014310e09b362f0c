import MassRelay.Ts.Order
import MassRelay.Ts.Timers

/-!
# MassRelay.Ts.Dispose

What is left of an engine after `dispose`.

`dispose` looks at the phase of the engine: where that is `disconnected` it leaves the client as it
is, though the client may be connected, or wait to reconnect, and it stops no asynchronous call. So
what it ends depends on the state that it finds (`Disposable`). Nothing that happens later changes
that: the timers, the promises and the jobs that are left find nothing to do (`Over`).

The `dispose` is a call of its own, made between two moves. One that a listener makes in the middle
of a callback is not looked at: the client goes on behind it, and after an `onDisconnect` it
reconnects.
-/

namespace MassRelay.Ts

/-- A command that opens a socket or sends a join. -/
def Command.joins : Command → Bool
  | .open .. | .send _ (.join _) => true
  | _ => false

def Effect.isCall : Effect → Bool
  | .call .. => true
  | .send .. => false

/-- The call may yet come to call an adapter, with a key or without. -/
def Continuation.applies (keyed : Bool) : Continuation → Bool
  | .scene _ _ _ _ todo => allPlain todo || keyed
  | .text .. | .sceneInit _ => true
  | .snapshot | .outgoingScene .. | .outgoingText _ => false

namespace CollabEngine

variable {doc : Document} {e e' : CollabEngine} {n adapter : Nat}

/-- `disconnect` resets the engine. -/
def Resets (e : CollabEngine) : Prop := e.client.isConnected = true ∧ e.client.grpc ≠ none

/-- A `dispose` ends everything. -/
structure Disposable (doc : Document) (e : CollabEngine) : Prop where
  sockets : e.client.sockets = if e.state.phase = .disconnected then [] else e.client.grpc.toList
  idle : e.state.phase = .disconnected →
    e.client.grpc = none ∧ (e.client.explicitDisconnect = true ∨ e.client.underway = [])
  pending : ∀ x ∈ e.pending, x.2.applies e.encryptionKey.isSome = false
  cursor : ∀ x ∈ e.timers, x.2 = .sendCursor → e.adapter = none ∨ Clears doc e x.1
  flush : ∀ x ∈ e.timers, x.2 = .flushOutgoing →
    e.adapter = none ∨ e.state.phase ≠ .connected ∨ Resets e ∨ Clears doc e x.1

/-- The application makes no more calls, and a closed socket delivers nothing. -/
def Later (e : CollabEngine) : EngineMove → Prop
  | .call _ => False
  | .job (.message socket _) => socket ∈ e.client.sockets
  | _ => True

/-- Since the first state no socket was opened, no join sent and no adapter called, and no socket
is open. -/
structure Ended (e e' : CollabEngine) : Prop where
  sockets : e'.client.sockets = []
  asked : ∃ asked, e'.client.asked = e.client.asked ++ asked ∧
    ∀ command ∈ asked, command.joins = false
  log : ∃ log, e'.log = e.log ++ log ∧ ∀ x ∈ log, x.2.isCall = false

/-- There is nothing left that could bring the engine back. -/
structure Over (e : CollabEngine) : Prop where
  sockets : e.client.sockets = []
  grpc : e.client.grpc = none
  underway : e.client.explicitDisconnect = true ∨ e.client.underway = []
  pending : ∀ x ∈ e.pending, x.2.applies e.encryptionKey.isSome = false
  timers : ∀ x ∈ e.timers,
    e.adapter = none ∨ x.2 = .flushOutgoing ∧ e.state.phase ≠ .connected

theorem Ended.refl (hsockets : e.client.sockets = []) : Ended e e :=
  ⟨hsockets, ⟨[], by rw [List.append_nil], by simp⟩, ⟨[], by rw [List.append_nil], by simp⟩⟩

theorem Ended.trans {e'' : CollabEngine} (h : Ended e e') (h' : Ended e' e'') : Ended e e'' := by
  obtain ⟨-, ⟨asked, heq, hasked⟩, log, hlog, hcalls⟩ := h
  obtain ⟨hsockets, ⟨asked', heq', hasked'⟩, log', hlog', hcalls'⟩ := h'
  refine ⟨hsockets, ⟨asked ++ asked', by rw [heq', heq, List.append_assoc], fun command hmem => ?_⟩,
    ⟨log ++ log', by rw [hlog', hlog, List.append_assoc], fun x hx => ?_⟩⟩
  · exact (List.mem_append.mp hmem).elim (hasked command) (hasked' command)
  · exact (List.mem_append.mp hx).elim (hcalls x) (hcalls' x)

/-! ### What is left runs out -/

/-- A client without a socket that does something else than open one. -/
theorem Over.client (h : Over e) {c : CollabClient} {state : CollabEngineState}
    (hsockets : c.sockets = []) (hgrpc : c.grpc = none)
    (hunderway : c.explicitDisconnect = true ∨ c.underway = [])
    {asked : List Command} (hasked : c.asked = e.client.asked ++ asked)
    (hjoins : ∀ command ∈ asked, command.joins = false) (hphase : state.phase = e.state.phase) :
    Over { e with client := c, state } ∧ Ended e { e with client := c, state } := by
  refine ⟨⟨hsockets, hgrpc, hunderway, h.pending, fun x hx => ?_⟩,
    ⟨hsockets, ⟨asked, hasked, hjoins⟩, ⟨[], by rw [List.append_nil], by simp⟩⟩⟩
  exact (h.timers x hx).imp_right fun hflush => ⟨hflush.1, hphase ▸ hflush.2⟩

theorem underway_endTask (c : CollabClient) (task : Task)
    (h : c.explicitDisconnect = true ∨ c.underway = []) :
    (c.endTask task).explicitDisconnect = true ∨ (c.endTask task).underway = [] := by
  refine h.imp_right fun hnone => List.eq_nil_iff_forall_not_mem.mpr fun task' hmem => ?_
  obtain ⟨hmem', hrejoins⟩ := List.mem_filter.mp hmem
  have hin : task' ∈ c.underway :=
    List.mem_filter.mpr ⟨(List.mem_filter.mp hmem').1, hrejoins⟩
  simp [hnone] at hin

/-- The task of a client that was called off. -/
theorem Over.explicit (h : Over e) {task : Task} (htask : task ∈ e.client.tasks)
    (hrejoins : task.rejoins = true) : e.client.explicitDisconnect = true := by
  refine h.underway.resolve_right fun hnone => ?_
  have hmem : task ∈ e.client.underway := List.mem_filter.mpr ⟨htask, hrejoins⟩
  simp [hnone] at hmem

/-- A job other than a message. -/
theorem Over.run {job : Job} (h : Over e) (hmessage : ∀ socket event, job ≠ .message socket event)
    (hrun : e.run doc job = some e') : Over e' ∧ Ended e e' := by
  have hend : ∀ task, Over { e with client := e.client.endTask task } ∧
      Ended e { e with client := e.client.endTask task } := fun task =>
    h.client h.sockets h.grpc (underway_endTask _ task h.underway) (List.append_nil _).symm
      (by simp) rfl
  cases job with
  | message socket event => exact absurd rfl (hmessage socket event)
  | opened socket =>
    obtain ⟨-, rfl⟩ := Page.settle_eq_some.mp hrun
    -- a socket that opens late finds no `grpc` to send the join on
    have heq : (page doc).modify (fun c => c.sendOn (.join c.joinAction))
        ((page doc).modify (.endTask (.opening socket)) e) =
          { e with client := e.client.endTask (.opening socket) } := by
      have hnone : (e.client.endTask (.opening socket)).grpc = none := h.grpc
      simp only [Page.modify, page, CollabClient.sendOn, hnone]
    rw [heq]
    exact hend _
  | refused socket =>
    obtain ⟨-, rfl⟩ := Page.settle_eq_some.mp hrun
    exact hend _
  | closed socket =>
    obtain ⟨-, heq⟩ := Option.ite_none_right_eq_some.mp hrun
    obtain rfl := Option.some.inj heq
    -- a socket that closes late is not the current one
    have hgrpc : ¬ ((page doc).client ((page doc).modify
        (fun c => { c with sockets := c.sockets.erase socket }) e)).grpc = some socket := by
      simp [Page.modify, page, h.grpc]
    rw [if_neg hgrpc]
    refine h.client ?_ h.grpc h.underway (List.append_nil _).symm (by simp) rfl
    simp [page, h.sockets]
  | failed socket message =>
    obtain ⟨-, heq⟩ := Option.ite_none_right_eq_some.mp hrun
    obtain rfl := Option.some.inj heq
    exact h.client h.sockets h.grpc h.underway (List.append_nil _).symm (by simp) rfl
  | fired timer =>
    obtain ⟨htask, rfl⟩ := Page.settle_eq_some.mp hrun
    have hexplicit := h.explicit htask rfl
    exact h.client h.sockets h.grpc (Or.inl hexplicit) rfl (by simp [Command.joins]) rfl
  | checked fetch status =>
    obtain ⟨htask, rfl⟩ := Page.settle_eq_some.mp hrun
    have hexplicit := h.explicit htask rfl
    have heq : (page doc).roomChecked status ((page doc).modify (.endTask (.roomCheck fetch)) e) =
        { e with client := e.client.endTask (.roomCheck fetch) } := if_pos hexplicit
    rw [heq]
    exact hend _
  | gotToken request token =>
    obtain ⟨htask, rfl⟩ := Page.settle_eq_some.mp hrun
    have hexplicit := h.explicit htask rfl
    have heq : (page doc).gotToken token ((page doc).modify (.endTask (.token request)) e) =
        { e with client := e.client.endTask (.token request) } := if_pos hexplicit
    rw [heq]
    exact hend _
  | tokenFailed request message =>
    obtain ⟨htask, rfl⟩ := Page.settle_eq_some.mp hrun
    have hexplicit := h.explicit htask rfl
    have heq : (page doc).getTokenFailed message
        ((page doc).modify (.endTask (.token request)) e) =
          { e with
            client := e.client.endTask (.token request)
            state := { e.state with error := some message } } := if_pos hexplicit
    rw [heq]
    exact h.client h.sockets h.grpc (underway_endTask _ _ h.underway) (List.append_nil _).symm
      (by simp) rfl

/-- A timer of the engine. -/
theorem Over.fire {timer : Nat} (h : Over e) (hfire : e.fire doc timer = some e') :
    Over e' ∧ Ended e e' := by
  obtain ⟨callback, hcallback, rfl⟩ := Option.map_eq_some_iff.mp hfire
  have htimers : ∀ x ∈ (e.expire timer).timers,
      e.adapter = none ∨ x.2 = .flushOutgoing ∧ e.state.phase ≠ .connected :=
    fun x hx => h.timers x (List.mem_of_mem_filter hx)
  have hended : Ended e e := .refl h.sockets
  have hfound : (timer, callback) ∈ e.timers := by
    obtain ⟨before, after, heq, -⟩ := List.lookup_eq_some_iff.mp hcallback
    simp [heq]
  have hidle := h.timers _ hfound
  cases callback with
  | flushOutgoing =>
    -- there is no adapter to ask, or no connection to send on
    have heq : (e.expire timer).flushOutgoing doc = (e.expire timer).begin := by
      unfold flushOutgoing
      dsimp only
      split
      · rfl
      · rename_i adapter hadapter
        refine if_pos ?_
        obtain hnone | ⟨-, hphase⟩ := hidle
        · exact absurd (hnone.symm.trans hadapter) (by simp)
        · exact hphase
    refine ⟨?_, ?_⟩
    · change Over ((e.expire timer).flushOutgoing doc)
      rw [heq]
      exact ⟨h.sockets, h.grpc, h.underway, h.pending, htimers⟩
    · change Ended e ((e.expire timer).flushOutgoing doc)
      rw [heq]
      exact ⟨hended.sockets, hended.asked, hended.log⟩
  | sendCursor =>
    have hnone : (e.expire timer).adapter = none := hidle.resolve_right (by simp)
    have heq : (e.expire timer).sendCursor doc =
        { e.expire timer with cursorPending := false } := by
      unfold sendCursor
      simp only [hnone]
    refine ⟨?_, ?_⟩
    · change Over ((e.expire timer).sendCursor doc)
      rw [heq]
      exact ⟨h.sockets, h.grpc, h.underway, h.pending, htimers⟩
    · change Ended e ((e.expire timer).sendCursor doc)
      rw [heq]
      exact ⟨hended.sockets, hended.asked, hended.log⟩

/-- Elements that cannot be decrypted. -/
theorem decryptScene_of_unkeyed (hkey : e.encryptionKey = none) (fromClientId : String)
    (done : List ElementUpdate) {todo : List ElementUpdate} (htodo : allPlain todo = false) :
    e.decryptScene n adapter fromClientId done todo = e := by
  induction todo generalizing done with
  | nil => simp [allPlain] at htodo
  | cons element todo ih =>
    unfold decryptScene
    split
    · rename_i hplain
      exact ih _ (by simpa [allPlain, hplain] using htodo)
    · rw [hkey]
      rfl

theorem encryptScene_eq (hsend : ¬ e.CanSend) (done todo : List ElementUpdate) :
    e.encryptScene n done todo = e ∨
      ∃ k, k.applies e.encryptionKey.isSome = false ∧ e.encryptScene n done todo = e.await n k := by
  induction todo generalizing done with
  | nil => exact Or.inl (trySend_of_not hsend)
  | cons element todo ih =>
    unfold encryptScene
    split
    · exact ih _
    · split
      · exact Or.inr ⟨_, rfl, rfl⟩
      · exact Or.inl rfl

/-- A call that goes on may wait once more, and does nothing. -/
theorem resume_eq (hsend : ¬ e.CanSend) (value : String) {k : Continuation}
    (hk : k.applies e.encryptionKey.isSome = false) : e.resume n value k = e ∨
      ∃ k', k'.applies e.encryptionKey.isSome = false ∧ e.resume n value k = e.await n k' := by
  cases k with
  | scene adapter fromClientId done element todo =>
    obtain ⟨htodo, hkey⟩ := Bool.or_eq_false_iff.mp hk
    have hnone : e.encryptionKey = none := by simpa using hkey
    exact Or.inl (decryptScene_of_unkeyed hnone _ _ htodo)
  | text | sceneInit => simp [Continuation.applies] at hk
  | snapshot => exact Or.inl (trySend_of_not hsend)
  | outgoingScene done element todo => exact encryptScene_eq hsend _ _
  | outgoingText update => exact Or.inl (trySend_of_not hsend)

theorem Over.pendingOnly (h : Over e) (pending : List (Nat × Continuation))
    (hpending : ∀ x ∈ pending, x.2.applies e.encryptionKey.isSome = false) :
    Over { e with pending } ∧ Ended e { e with pending } := by
  have hended : Ended e e := .refl h.sockets
  exact ⟨⟨h.sockets, h.grpc, h.underway, hpending, h.timers⟩,
    ⟨hended.sockets, hended.asked, hended.log⟩⟩

theorem Over.settle {value : Option String} (h : Over e) (hsettle : e.settle n value = some e') :
    Over e' ∧ Ended e e' := by
  obtain ⟨k, hk, rfl⟩ := Option.map_eq_some_iff.mp hsettle
  have hfound : (n, k) ∈ e.pending := by
    obtain ⟨before, after, heq, -⟩ := List.lookup_eq_some_iff.mp hk
    simp [heq]
  have hrest := h.pendingOnly (e.pending.filter (·.1 ≠ n))
    fun x hx => h.pending x (List.mem_of_mem_filter hx)
  cases value with
  | none => exact hrest
  | some value =>
    have hsend : ¬ ({ e with pending := e.pending.filter (·.1 ≠ n) } : CollabEngine).CanSend :=
      fun hsend => by simpa [h.grpc] using hsend.2
    obtain heq | ⟨k', hk', heq⟩ := resume_eq (n := n) hsend value (h.pending _ hfound)
    · dsimp only
      rw [heq]
      exact hrest
    · dsimp only
      rw [heq]
      refine h.pendingOnly _ fun x hx => ?_
      obtain hx | hx := List.mem_append.mp hx
      · exact h.pending x (List.mem_of_mem_filter hx)
      · rw [List.mem_singleton.mp hx]
        exact hk'

theorem Over.step {m : EngineMove} (h : Over e) (hm : Later e m) (hstep : e.step doc m = some e') :
    Over e' ∧ Ended e e' := by
  cases m with
  | call call => exact absurd hm id
  | job job =>
    refine h.run (fun socket event heq => ?_) hstep
    subst heq
    have hmem : socket ∈ e.client.sockets := hm
    simp [h.sockets] at hmem
  | fired timer => exact h.fire hstep
  | settled n value => exact h.settle hstep

/-- Whatever happens, it stays over. -/
theorem Over.ended {ms : List EngineMove} (h : Over e)
    (hms : Machine.Guarded (CollabEngine.step doc) Later e ms)
    (hrun : Machine.exec (CollabEngine.step doc) e ms = some e') : Ended e e' := by
  have hboth : Over e' ∧ Ended e e' :=
    Machine.invariant_guarded (I := fun t => Over t ∧ Ended e t)
      (fun t m t' ht hm hstep => ⟨(ht.1.step hm hstep).1, ht.2.trans (ht.1.step hm hstep).2⟩)
      ⟨h, .refl h.sockets⟩ hms hrun
  exact hboth.2

/-! ### `dispose` -/

/-- The timers that `_clearTimers` leaves. -/
theorem mem_clearTimers (doc : Document) {x : Nat × TimerCallback}
    (h : x ∈ (e.clearTimers doc).timers) :
    x ∈ e.timers ∧ ¬ Clears doc e x.1 := by
  have htimers : (e.clearTimers doc).timers = (e.clock.clear doc).timers :=
    congrArg Clock.timers clearTimers_clock
  rw [htimers] at h
  obtain ⟨hmem, hdebounce, hcursor⟩ := Clock.mem_clear.mp h
  exact ⟨hmem, not_or.mpr ⟨ne_true_of_eq_false hdebounce, ne_true_of_eq_false hcursor⟩⟩

/-- What is left of an engine that clears its timers, and may have been reset before. -/
theorem Disposable.timers (h : Disposable doc e) {phase : Phase}
    (hphase : phase = .connected → e.state.phase = .connected ∧ ¬ Resets e)
    {x : Nat × TimerCallback}
    (hx : x ∈ e.timers ∧ ¬ Clears doc e x.1) :
    e.adapter = none ∨ x.2 = .flushOutgoing ∧ phase ≠ .connected := by
  cases hcallback : x.2 with
  | sendCursor => exact Or.inl ((h.cursor x hx.1 hcallback).resolve_right hx.2)
  | flushOutgoing =>
    obtain hnone | hphase' | hresets | hclears := h.flush x hx.1 hcallback
    · exact Or.inl hnone
    · exact Or.inr ⟨rfl, fun hup => hphase' (hphase hup).1⟩
    · exact Or.inr ⟨rfl, fun hup => (hphase hup).2 hresets⟩
    · exact absurd hclears hx.2

theorem Disposable.over (h : Disposable doc e) : Over (e.dispose doc) := by
  -- `clearTimers` comes last, whatever the rest of `dispose` did
  have hclear : ∀ t : CollabEngine, t.client.sockets = [] → t.client.grpc = none →
      (t.client.explicitDisconnect = true ∨ t.client.underway = []) →
      t.pending = e.pending → t.encryptionKey = e.encryptionKey → t.adapter = e.adapter →
      (t.state.phase = .connected → e.state.phase = .connected ∧ ¬ Resets e) →
      (∀ x ∈ (t.clearTimers doc).timers, x ∈ e.timers ∧ ¬ Clears doc e x.1) →
      Over (t.clearTimers doc) := by
    intro t hsockets hgrpc hunderway hpending hkey hadapter hphase htimers
    obtain ⟨timers, debounceTimer, cursorTimer, heq⟩ := clearTimers_eq doc t
    rw [heq] at htimers ⊢
    refine ⟨hsockets, hgrpc, hunderway, ?_, fun x hx => ?_⟩
    · dsimp only
      rw [hpending, hkey]
      exact h.pending
    · dsimp only
      rw [hadapter]
      exact h.timers hphase (htimers x hx)
  unfold dispose
  dsimp only
  by_cases hphase : e.state.phase = .disconnected
  -- a disconnected engine does not call `disconnect`
  · rw [if_neg (not_not.mpr hphase)]
    have hsockets := h.sockets
    rw [if_pos hphase] at hsockets
    obtain ⟨hgrpc, hunderway⟩ := h.idle hphase
    refine hclear _ hsockets hgrpc hunderway rfl rfl rfl (fun hup => ?_) fun x hx => ?_
    · exact absurd (hphase.symm.trans hup) (by simp)
    · exact mem_clearTimers doc (e := { e with disposed := true }) hx
  · have hsockets := h.sockets
    rw [if_neg hphase] at hsockets
    rw [if_pos hphase, disconnect_eq]
    have hstop : e.client.stop.sockets = e.client.stop.grpc.toList := by
      simpa [CollabClient.stop_eq] using hsockets
    have hexplicit : e.client.stop.explicitDisconnect = true := by
      simp [CollabClient.stop_eq]
    have hleft := CollabClient.left_hangUp hstop
    dsimp only
    split
    · rename_i hgrpc
      refine hclear _ ?_ ?_ (Or.inl hexplicit) rfl rfl rfl (fun hup => ⟨hup, fun hresets => ?_⟩) ?_
      · rw [hstop, CollabClient.stop_eq]
        simp [hgrpc]
      · simpa [CollabClient.stop_eq] using hgrpc
      · exact hresets.2 hgrpc
      · exact fun x hx => mem_clearTimers doc
          (e := { e with disposed := true, client := e.client.stop }) hx
    · rename_i hgrpc
      have hcalled : e.client.stop.hangUp.explicitDisconnect = true := by
        rw [CollabClient.hangUp_explicitDisconnect, hexplicit]
      split
      -- the client was connected: `onDisconnect` resets the engine and clears its timers once more
      · rename_i hup
        obtain ⟨timers, debounceTimer, cursorTimer, heq⟩ := clearTimers_eq doc
          { e with disposed := true, client := e.client.stop.hangUp }
        have htimers : ∀ x ∈ timers, x ∈ e.timers ∧ ¬ Clears doc e x.1 := by
          intro x hx
          refine mem_clearTimers doc
            (e := { e with disposed := true, client := e.client.stop.hangUp })
            ?_
          rw [heq]
          exact hx
        unfold resetState
        rw [heq]
        refine hclear _ hleft.sockets hleft.grpc (Or.inl hcalled) rfl rfl rfl (fun hup => ?_) ?_
        · simp [updateState] at hup
        · exact fun x hx => htimers x (mem_clearTimers doc hx).1
      · rename_i hdown
        refine hclear _ hleft.sockets hleft.grpc (Or.inl hcalled) rfl rfl rfl
          (fun hup => ⟨hup, fun hresets => hdown hresets.1⟩) ?_
        exact fun x hx => mem_clearTimers doc
          (e := { e with disposed := true, client := e.client.stop.hangUp }) hx

/-! ### Runs -/

/-- After a `dispose` that finds an engine that it can end, no run of what is left opens a socket,
sends a join or calls an adapter. -/
theorem dispose_ended (doc : Document) (e : CollabEngine) (ms : List EngineMove) {t : CollabEngine}
    (h : Disposable doc e) (hms : Machine.Guarded (step doc) Later (e.dispose doc) ms)
    (hrun : Machine.exec (step doc) (e.dispose doc) ms = some t) : Ended (e.dispose doc) t :=
  h.over.ended hms hrun

instance (e : CollabEngine) : Decidable e.Resets := by
  unfold Resets
  infer_instance

instance (doc : Document) (e : CollabEngine) : Decidable (Disposable doc e) :=
  decidable_of_iff (_ ∧ _ ∧ _ ∧ _ ∧ _)
    ⟨fun h => ⟨h.1, h.2.1, h.2.2.1, h.2.2.2.1, h.2.2.2.2⟩,
      fun h => ⟨h.sockets, h.idle, h.pending, h.cursor, h.flush⟩⟩

instance (e : CollabEngine) (m : EngineMove) : Decidable (Later e m) := by
  unfold Later
  split <;> infer_instance

/-- It has joined. -/
def joined : List EngineMove :=
  [.call (.connect (plainParams false)), .job (.opened 0), .job (.message 0 (joinedAs "a" "b" []))]

theorem dispose_ended_joined : ∃ e t,
    Machine.exec (step .blank) (start {} 5 (some 0)) joined = some e ∧
    Machine.exec (step .blank) (e.dispose .blank) [.job (.closed 0)] = some t ∧
    Ended (e.dispose .blank) t := by
  have hrun : (Machine.exec (step .blank) (start {} 5 (some 0)) joined).any (fun e =>
      Disposable .blank e ∧
        (Machine.execIf (step .blank) Later (e.dispose .blank) [.job (.closed 0)]).isSome) =
          true := by
    decide +kernel
  obtain ⟨e, he, hstate⟩ := (Option.any_eq_true _ _).mp hrun
  obtain ⟨hdisposable, hlater⟩ := of_decide_eq_true hstate
  obtain ⟨t, ht⟩ := Option.isSome_iff_exists.mp hlater
  obtain ⟨hguarded, ht⟩ := Machine.execIf_eq_some ht
  exact ⟨e, t, he, ht, dispose_ended _ _ _ hdisposable hguarded ht⟩

/-- It waits to reconnect, and does so when it is disposed of. -/
theorem dispose_reconnects : ¬ ∀ doc options maxRetries adapter ms e,
    Machine.exec (step doc) (start options maxRetries adapter) ms = some e →
      ∀ ms' t, Machine.Guarded (step doc) Later (e.dispose doc) ms' →
        Machine.exec (step doc) (e.dispose doc) ms' = some t → Ended (e.dispose doc) t := by
  intro h
  have hrun : (Machine.exec (step .blank) (start {} 5 (some 0)) (joined ++ [.job (.closed 0)])).any
      (fun e => (Machine.execIf (step .blank) Later (e.dispose .blank)
        [.job (.fired 2), .job (.checked 3 (some 200))]).any fun t => t.client.sockets = [4]) =
          true := by
    decide +kernel
  obtain ⟨e, he, hlater⟩ := (Option.any_eq_true _ _).mp hrun
  obtain ⟨t, ht, hsockets⟩ := (Option.any_eq_true _ _).mp hlater
  obtain ⟨hguarded, ht⟩ := Machine.execIf_eq_some ht
  have hended := h _ _ _ _ _ e he _ t hguarded ht
  exact absurd (hended.sockets.symm.trans (of_decide_eq_true hsockets)) (by simp)

end CollabEngine

end MassRelay.Ts

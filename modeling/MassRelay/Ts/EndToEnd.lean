import MassRelay.Server.Passage
import MassRelay.Ts.Effects
import MassRelay.Ts.Network

/-!
# MassRelay.Ts.EndToEnd

From the `send` of one client to the `onMessage` of another.

The streams take the actions of a socket in the order in which its client sent them, and a client
only ever sends more (`step_grows`), so what was given to `Send` on a stream is the first part of
what its client sent (`Carried`). What the relay makes of it is `send_to_recv`.
-/

namespace MassRelay.Ts

/-! ### A client only sends more -/

theorem CollabClient.NoJoin.actions {c c' : CollabClient} (h : c.NoJoin c') (socket : Nat) :
    c.actions socket <+: c'.actions socket := by
  obtain ⟨asked, heq, -⟩ := h
  rw [CollabClient.actions, CollabClient.actions, heq]
  exact (List.prefix_append _ _).filterMap _

namespace CollabEngine

variable {doc : Document} {e e' : CollabEngine} {n : Nat}

theorem noJoin_call (callback : Callback) (e : CollabEngine) :
    (page doc).NoJoin e (e.call doc callback) :=
  (call_client callback).noJoin

theorem within_noJoin (doc : Document) : (page doc).Within (page doc).NoJoin :=
  Page.within_noJoin noJoin_call

theorem noJoin_triggerSceneInit (h : e.triggerSceneInit = some e') :
    e.client.NoJoin e'.client :=
  (triggerSceneInit_keeps h).1.noJoin

theorem noJoin_disconnect (doc : Document) (e : CollabEngine) :
    e.client.NoJoin (e.disconnect doc).client :=
  (within_noJoin doc).disconnect (.refl e)

theorem noJoin_perform (call : EngineCall) : e.client.NoJoin (e.perform doc call).client := by
  cases call with
  | connect params =>
    change e.client.NoJoin ((e.connect doc params).getD (e.wire params)).client
    unfold connect Page.connect
    split
    · exact .refl _
    · exact CollabClient.NoJoin.trans (.of_eq rfl) (.openWithToken _)
  | disconnect => exact noJoin_disconnect doc e
  | dispose =>
    change e.client.NoJoin (clearTimers doc _).client
    rw [clearTimers_client]
    split
    · exact noJoin_disconnect doc { e with disposed := true }
    · exact .refl _
  | setAdapter adapter =>
    change e.client.NoJoin (e.setAdapter adapter).client
    unfold setAdapter
    dsimp only
    split
    · cases htrigger : triggerSceneInit { e with adapter } with
      | none => exact .refl _
      | some e₁ => exact noJoin_triggerSceneInit (e := { e with adapter }) htrigger
    · exact .refl _
  | setEncryptionKey key => exact .refl _
  | notifyLocalChange =>
    change e.client.NoJoin (e.notifyLocalChange doc).client
    unfold notifyLocalChange
    split <;> exact .refl _
  | notifyCursorMove =>
    change e.client.NoJoin (e.notifyCursorMove doc).client
    unfold notifyCursorMove
    split <;> exact .refl _
  | notifyCredentialsChanged reason => exact (Synced.trySend none (by simp)).client.noJoin
  | notifyTitleChanged title => exact (Synced.trySend none (by simp)).client.noJoin

theorem noJoin_receive (event : CollabEvent) : e.client.NoJoin (e.receive doc event).client := by
  unfold receive
  split
  · exact (call_client _).noJoin
  · have hcall : (page doc).NoJoin e (e.call doc (.onEvent event)) := noJoin_call _ e
    exact CollabClient.NoJoin.trans hcall
      ((within_noJoin doc).handleEvent event fun callback t _ => noJoin_call callback t)

/-- Whatever an engine does, the actions on a socket are those before and perhaps more. -/
theorem step_grows {m : EngineMove} (h : e.step doc m = some e') (socket : Nat) :
    e.client.actions socket <+: e'.client.actions socket := by
  cases m with
  | call call =>
    obtain rfl := Option.some.inj h
    exact (noJoin_perform call).actions socket
  | fired timer =>
    obtain ⟨callback, -, rfl⟩ := Option.map_eq_some_iff.mp h
    cases callback with
    | flushOutgoing =>
      exact (Synced.flushOutgoing (e := e.expire timer)).client.noJoin.actions socket
    | sendCursor =>
      exact (Synced.sendCursor (e := e.expire timer)).client.noJoin.actions socket
  | settled n value =>
    exact (Synced.settle h).client.noJoin.actions socket
  | job job =>
    by_cases hopened : ∃ socket', job = .opened socket'
    · obtain ⟨socket', rfl⟩ := hopened
      obtain ⟨-, rfl⟩ := Page.settle_eq_some.mp h
      change _ <+: ((e.client.endTask _).sendOn _).actions socket
      -- the join, on the socket of now
      unfold CollabClient.sendOn
      split
      · exact List.prefix_rfl
      · exact (List.prefix_append e.client.asked _).filterMap _
    · cases job with
      | message socket' event =>
        obtain ⟨-, heq⟩ := Option.ite_none_right_eq_some.mp h
        obtain rfl := Option.some.inj heq
        exact (noJoin_receive event).actions socket
      | _ =>
        exact (@Page.NoJoin.run _ (page doc) _ _ noJoin_call _
          (fun socket' heq => hopened ⟨socket', heq⟩) h).actions socket

end CollabEngine

/-! ### Runs of the network -/

namespace Network

variable {ι : Type} [DecidableEq ι] {w : Surroundings ι} {s s' : Network ι} {m : NetworkMove ι}
variable {maxPeers : Int}

/-- What a socket has delivered. -/
def heardOn (w : Surroundings ι) (s : Network ι) (x : ι) (socket : Nat) : List Item :=
  (s.relay.shared.streams (w.wiring.stream x socket)).returned.take (s.delivered x socket)

theorem prefix_concat {α : Type} {l l' : List α} {a : α} (h : l <+: l')
    (ha : l'[l.length]? = some a) : l ++ [a] <+: l' := by
  obtain ⟨rest, rfl⟩ := h
  cases rest with
  | nil => simp at ha
  | cons b rest =>
    obtain rfl : b = a := by simpa using ha
    exact ⟨rest, by rw [List.append_assoc]; rfl⟩

/-- The relay is where a run of it led, in which the stream of each socket was given what the
client sent there first. -/
def Carried (w : Surroundings ι) (maxPeers : Int) (s : Network ι) : Prop :=
  ∃ moves, System.run w.uuids w.streamConfig (System.init maxPeers) moves = some s.relay ∧
    ∀ x socket, ∃ sent, sent <+: (s.engine x).client.actions socket ∧
      sent.length = s.taken x socket ∧ given (w.wiring.stream x socket) moves = sent.map some

omit [DecidableEq ι] in
/-- A move that gives nothing to a stream of a socket. -/
theorem given_of_takes {move : MassRelay.Move} (h : takes w move = none) (x : ι) (socket : Nat) :
    given (w.wiring.stream x socket) [move] = [] := by
  cases move with
  | run g n => rfl
  | launch m =>
    cases m with
    | send i a =>
      have hi : i ≠ w.wiring.stream x socket := by
        rintro rfl
        rw [takes, (w.wiring.socket_eq_some _ _ _).mpr rfl] at h
        simp at h
      rw [given_send, if_neg hi]
    | _ => rfl

/-- A move that gives an action to one. -/
theorem given_of_takes_some {move : MassRelay.Move} {x y : ι} {socket socket' : Nat}
    {action : Option Action} (h : takes w move = some (x, socket, action)) :
    given (w.wiring.stream y socket') [move] =
      if y = x ∧ socket' = socket then [action] else [] := by
  cases move with
  | run g n => simp [takes] at h
  | launch m =>
    cases m with
    | send i a =>
      obtain ⟨⟨x', k⟩, hsocket, heq⟩ := Option.map_eq_some_iff.mp h
      simp only [Prod.mk.injEq] at heq
      obtain ⟨rfl, rfl, rfl⟩ := heq
      obtain rfl := (w.wiring.socket_eq_some _ _ _).mp hsocket
      have hiff : w.wiring.stream x' k = w.wiring.stream y socket' ↔ y = x' ∧ socket' = k := by
        constructor
        · intro heq
          rw [heq, (w.wiring.socket_eq_some _ _ _).mpr rfl] at hsocket
          simpa using hsocket
        · rintro ⟨rfl, rfl⟩
          rfl
      simp only [given_send, hiff]
    | _ => simp [takes] at h

omit [DecidableEq ι] in
/-- The engines go on. -/
theorem Carried.engines (h : Carried w maxPeers s) (hrelay : s'.relay = s.relay)
    (htaken : s'.taken = s.taken)
    (hgrows : ∀ x socket, (s.engine x).client.actions socket <+:
      (s'.engine x).client.actions socket) : Carried w maxPeers s' := by
  obtain ⟨moves, hrun, hgiven⟩ := h
  refine ⟨moves, hrelay ▸ hrun, fun x socket => ?_⟩
  obtain ⟨sent, hprefix, hlength, hsent⟩ := hgiven x socket
  exact ⟨sent, hprefix.trans (hgrows x socket), htaken ▸ hlength, hsent⟩

theorem Carried.moveEngine {x : ι} {move : EngineMove} (h : Carried w maxPeers s)
    (hmove : s.moveEngine w x move = some s') : Carried w maxPeers s' := by
  obtain ⟨e, he, rfl⟩ := Option.map_eq_some_iff.mp hmove
  refine h.engines rfl rfl fun y socket => ?_
  by_cases hy : y = x
  · subst hy
    simp only [Function.update_self]
    exact CollabEngine.step_grows he socket
  · simp only [Function.update_of_ne hy]
    exact List.prefix_rfl

theorem Carried.step (h : Carried w maxPeers s) (hstep : s.step w m = some s') :
    Carried w maxPeers s' := by
  cases m with
  | engine x move =>
    obtain ⟨-, hmove⟩ := Option.ite_none_left_eq_some.mp hstep
    exact h.moveEngine hmove
  | deliver x socket =>
    obtain ⟨event, -, hdeliver⟩ := Option.bind_eq_some_iff.mp hstep
    obtain ⟨s₁, hmove, rfl⟩ := Option.map_eq_some_iff.mp hdeliver
    exact (h.moveEngine hmove).engines rfl rfl fun _ _ => List.prefix_rfl
  | relay move =>
    obtain ⟨moves, hrun, hgiven⟩ := h
    have hon : ∀ {t}, System.step w.uuids w.streamConfig s.relay move = some t →
        System.run w.uuids w.streamConfig (System.init maxPeers) (moves ++ [move]) = some t := by
      intro t ht
      refine (Machine.exec_append hrun [move]).trans ?_
      rw [Machine.exec, ht]
      rfl
    simp only [Network.step] at hstep
    split at hstep
    · rename_i htakes
      obtain ⟨relay, hrelay, rfl⟩ := Option.map_eq_some_iff.mp hstep
      refine ⟨moves ++ [move], hon hrelay, fun x socket => ?_⟩
      rw [given_concat, given_of_takes htakes, List.append_nil]
      exact hgiven x socket
    · rename_i x socket action htakes
      obtain ⟨hnext, hmove⟩ := Option.ite_none_right_eq_some.mp hstep
      obtain ⟨relay, hrelay, rfl⟩ := Option.map_eq_some_iff.mp hmove
      refine ⟨moves ++ [move], hon hrelay, fun y socket' => ?_⟩
      obtain ⟨sent, hprefix, hlength, hsent⟩ := hgiven y socket'
      rw [given_concat, given_of_takes_some htakes, hsent]
      by_cases hy : y = x ∧ socket' = socket
      · -- the next action of the socket
        obtain ⟨rfl, rfl⟩ := hy
        obtain ⟨action', haction', rfl⟩ := Option.map_eq_some_iff.mp hnext
        refine ⟨sent ++ [action'], ?_, by simp [hlength, advance], by simp⟩
        rw [← hlength] at haction'
        exact prefix_concat hprefix haction'
      · exact ⟨sent, hprefix, by simp [hlength, advance, hy], by simp [hy]⟩

end Network

end MassRelay.Ts

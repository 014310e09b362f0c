import MassRelay.Ts.CollabEngine
import MassRelay.Ts.Sockets

/-!
# MassRelay.Ts.Effects

What the methods of an engine leave alone.

What the engine asks of its client in a callback is a `send` (`Sends`), so that the client's own
methods go on as if the callback had returned at once, but for the commands on record. Sync events
and updates only touch what belongs to them (`Synced`).
-/

namespace MassRelay.Ts

/-- A command that sends an action. -/
def Command.isSend : Command → Bool
  | .send .. => true
  | _ => false

namespace CollabClient

variable {c c' c'' : CollabClient}

/-- The client has sent actions other than joins, and is as before otherwise. -/
def Sends (c c' : CollabClient) : Prop :=
  ∃ asked, c' = { c with asked := c.asked ++ asked } ∧
    ∀ command ∈ asked, command.isSend = true ∧ command.isJoin = false

namespace Sends

theorem refl (c : CollabClient) : c.Sends c := ⟨[], by rw [List.append_nil], by simp⟩

theorem trans (h : c.Sends c') (h' : c'.Sends c'') : c.Sends c'' := by
  obtain ⟨asked, rfl, hsend⟩ := h
  obtain ⟨asked', rfl, hsend'⟩ := h'
  refine ⟨asked ++ asked', by rw [List.append_assoc], fun command hmem => ?_⟩
  exact (List.mem_append.mp hmem).elim (hsend command) (hsend' command)

/-- Whatever is read off a client and not off its commands. -/
theorem field {α : Type} (h : c.Sends c') (f : CollabClient → α)
    (hf : ∀ asked, f { c with asked } = f c) : f c' = f c := by
  obtain ⟨asked, rfl, -⟩ := h
  exact hf _

theorem isConnected (h : c.Sends c') : c'.isConnected = c.isConnected :=
  h.field (·.isConnected) fun _ => rfl

theorem isConnecting (h : c.Sends c') : c'.isConnecting = c.isConnecting :=
  h.field (·.isConnecting) fun _ => rfl

theorem explicitDisconnect (h : c.Sends c') : c'.explicitDisconnect = c.explicitDisconnect :=
  h.field (·.explicitDisconnect) fun _ => rfl

theorem hasJoined (h : c.Sends c') : c'.hasJoined = c.hasJoined :=
  h.field (·.hasJoined) fun _ => rfl

theorem grpc (h : c.Sends c') : c'.grpc = c.grpc := h.field (·.grpc) fun _ => rfl

theorem noJoin (h : c.Sends c') : c.NoJoin c' := by
  obtain ⟨asked, rfl, hsend⟩ := h
  exact ⟨asked, rfl, fun command hmem => (hsend command hmem).2⟩

end Sends

theorem send_eq_some {action : Action} :
    c.send action = some c' ↔ c.isConnected = true ∧ c.grpc.isSome = true ∧
      c.sendOn action = c' := by
  rw [send, Option.ite_none_right_eq_some, Bool.and_eq_true, Option.some.injEq, and_assoc]

theorem sends_sendOn {action : Action} (hjoin : ∀ join, action ≠ .join join) :
    c.Sends (c.sendOn action) := by
  unfold sendOn
  split
  · exact .refl c
  · rename_i socket _
    refine ⟨[.send socket action], rfl, fun command hmem => ?_⟩
    rw [List.mem_singleton.mp hmem]
    cases action with
    | join join => exact absurd rfl (hjoin join)
    | _ => exact ⟨rfl, rfl⟩

end CollabClient

namespace CollabEngine

variable {doc : Document} {e e' e'' : CollabEngine} {n adapter : Nat} {origin : Option Nat}

/-! ### Sync events and updates -/

/-- Apart from its sync events and its updates, the engine is as before. -/
def Synced (e e' : CollabEngine) : Prop :=
  ∃ client isInitialized log pending started, e.client.Sends client ∧
    e' = { e with
      client
      state := { e.state with isInitialized }
      log := e.log ++ log
      pending
      started }

namespace Synced

theorem refl (e : CollabEngine) : Synced e e :=
  ⟨e.client, e.state.isInitialized, [], e.pending, e.started, .refl _, by rw [List.append_nil]⟩

theorem trans (h : Synced e e') (h' : Synced e' e'') : Synced e e'' := by
  obtain ⟨client, _, log, _, _, hsends, rfl⟩ := h
  obtain ⟨client', isInitialized', log', pending', started', hsends', rfl⟩ := h'
  exact ⟨client', isInitialized', log ++ log', pending', started', hsends.trans hsends',
    by rw [List.append_assoc]⟩

theorem client (h : Synced e e') : e.client.Sends e'.client := by
  obtain ⟨_, _, _, _, _, hsends, rfl⟩ := h
  exact hsends

/-- Whatever is read off an engine and not off what its sync events and updates change. -/
theorem field {α : Type} (h : Synced e e') (f : CollabEngine → α)
    (hf : ∀ client isInitialized log pending started,
      f { e with client, state := { e.state with isInitialized }, log, pending, started } = f e) :
    f e' = f e := by
  obtain ⟨_, _, _, _, _, _, rfl⟩ := h
  exact hf _ _ _ _ _

theorem phase (h : Synced e e') : e'.state.phase = e.state.phase :=
  h.field (·.state.phase) fun _ _ _ _ _ => rfl

theorem pendingOnly (pending : List (Nat × Continuation)) : Synced e { e with pending } :=
  ⟨e.client, e.state.isInitialized, [], pending, e.started, .refl _, by rw [List.append_nil]⟩

theorem record (origin : Option Nat) (effect : Effect) : Synced e (e.record origin effect) :=
  ⟨e.client, e.state.isInitialized, [(origin, effect)], e.pending, e.started, .refl _, rfl⟩

theorem await (n : Nat) (k : Continuation) : Synced e (e.await n k) :=
  ⟨e.client, e.state.isInitialized, [], e.pending ++ [(n, k)], e.started, .refl _,
    by rw [List.append_nil]; rfl⟩

theorem applySceneInit (payload : String) : Synced e (e.applySceneInit n adapter payload) :=
  ⟨e.client, true, [(some n, .call adapter (.applySceneInit payload))], e.pending, e.started,
    .refl _, rfl⟩

end Synced

theorem send_eq_some {action : Action} :
    e.send origin action = some e' ↔ e.client.isConnected = true ∧ e.client.grpc.isSome = true ∧
      { e with client := e.client.sendOn action }.record origin (.send action) = e' := by
  simp only [send, Option.map_eq_some_iff, CollabClient.send_eq_some]
  constructor
  · rintro ⟨_, ⟨hup, hgrpc, rfl⟩, heq⟩
    exact ⟨hup, hgrpc, heq⟩
  · rintro ⟨hup, hgrpc, heq⟩
    exact ⟨_, ⟨hup, hgrpc, rfl⟩, heq⟩

/-- The client's `send` does not throw. -/
def CanSend (e : CollabEngine) : Prop :=
  e.client.isConnected = true ∧ e.client.grpc.isSome = true

instance (e : CollabEngine) : Decidable e.CanSend := by
  unfold CanSend
  infer_instance

theorem CanSend.send {action : Action} (h : e.CanSend) : e.send origin action =
    some ({ e with client := e.client.sendOn action }.record origin (.send action)) :=
  send_eq_some.mpr ⟨h.1, h.2, rfl⟩

theorem canSend_of_send {action : Action} (h : e.send origin action = some e') : e.CanSend :=
  ⟨(send_eq_some.mp h).1, (send_eq_some.mp h).2.1⟩

theorem trySend_of_canSend {action : Action} (h : e.CanSend) : e.trySend origin action =
    { e with client := e.client.sendOn action }.record origin (.send action) := by
  rw [trySend, h.send, Option.getD_some]

theorem trySend_of_not {action : Action} (h : ¬ e.CanSend) : e.trySend origin action = e := by
  unfold trySend
  cases hsend : e.send origin action with
  | none => rfl
  | some e' => exact absurd (canSend_of_send hsend) h

theorem Synced.send {action : Action} (hjoin : ∀ join, action ≠ .join join)
    (h : e.send origin action = some e') : Synced e e' := by
  obtain ⟨-, -, rfl⟩ := send_eq_some.mp h
  exact ⟨e.client.sendOn action, e.state.isInitialized, [(origin, .send action)], e.pending,
    e.started, CollabClient.sends_sendOn hjoin, rfl⟩

theorem Synced.trySend (origin : Option Nat) {action : Action}
    (hjoin : ∀ join, action ≠ .join join) : Synced e (e.trySend origin action) := by
  unfold CollabEngine.trySend
  cases h : e.send origin action with
  | none => exact .refl e
  | some e' => exact Synced.send hjoin h

theorem Synced.decryptScene (fromClientId : String) (done todo : List ElementUpdate) :
    Synced e (e.decryptScene n adapter fromClientId done todo) := by
  induction todo generalizing done with
  | nil => exact .record _ _
  | cons element todo ih =>
    unfold CollabEngine.decryptScene
    split
    · exact ih _
    · split
      · exact .await _ _
      · exact .refl e

theorem Synced.encryptScene (done todo : List ElementUpdate) :
    Synced e (e.encryptScene n done todo) := by
  induction todo generalizing done with
  | nil => exact .trySend _ (by simp)
  | cons element todo ih =>
    unfold CollabEngine.encryptScene
    split
    · exact ih _
    · split
      · exact .await _ _
      · exact .refl e

theorem Synced.syncEvent (event : CollabEvent) : Synced e (e.syncEvent doc n event) := by
  unfold CollabEngine.syncEvent
  split
  · exact .refl e
  · split
    · split
      · exact .decryptScene _ _ _
      · exact .record _ _
    · split
      · exact .await _ _
      · exact .record _ _
    · split
      · exact .refl e
      · exact .record _ _
    · dsimp only
      generalize (if _ = "" then _ else _ : String) = payload
      split
      · exact .await _ _
      · exact .applySceneInit _
    · dsimp only
      split
      · split
        · exact (Synced.record _ _).trans (.await _ _)
        · exact (Synced.record _ _).trans (.trySend _ (by simp))
      · exact .refl e
    · exact .refl e

/-- A new call. -/
theorem Synced.begin (e : CollabEngine) : Synced e e.begin :=
  ⟨e.client, e.state.isInitialized, [], e.pending, e.started + 1, .refl _,
    by rw [List.append_nil]; rfl⟩

theorem Synced.handleSyncEvent (event : CollabEvent) : Synced e (e.handleSyncEvent doc event) :=
  (Synced.begin e).trans (.syncEvent event)

theorem Synced.sendOutgoing (update : OutgoingUpdate) : Synced e (e.sendOutgoing n update) := by
  cases update with
  | sceneUpdate su =>
    unfold CollabEngine.sendOutgoing
    dsimp only
    split
    · exact .encryptScene _ _
    · exact .trySend _ (by simp)
  | textUpdate tu =>
    unfold CollabEngine.sendOutgoing
    dsimp only
    split
    · exact .await _ _
    · exact .trySend _ (by simp)

theorem Synced.flushOutgoing : Synced e (e.flushOutgoing doc) := by
  refine (Synced.begin e).trans ?_
  unfold CollabEngine.flushOutgoing
  dsimp only
  split
  · exact .refl _
  · split
    · exact .refl _
    · split
      · exact .record _ _
      · exact (Synced.record _ _).trans (.sendOutgoing _)

theorem Synced.resume (value : String) (k : Continuation) : Synced e (e.resume n value k) := by
  cases k with
  | scene => exact .decryptScene _ _ _
  | text => exact .record _ _
  | sceneInit => exact .applySceneInit _
  | snapshot => exact .trySend _ (by simp)
  | outgoingScene => exact .encryptScene _ _
  | outgoingText => exact .trySend _ (by simp)

/-- A cursor that is sent no longer waits. -/
theorem Synced.sendCursor : Synced { e with cursorPending := false } (e.sendCursor doc) := by
  unfold CollabEngine.sendCursor
  dsimp only
  split
  · exact .refl _
  · split
    · exact .record _ _
    · exact (Synced.record _ _).trans (.trySend _ (by simp))

/-- A call goes on. -/
theorem Synced.settle {value : Option String} (h : e.settle n value = some e') : Synced e e' := by
  obtain ⟨k, -, rfl⟩ := Option.map_eq_some_iff.mp h
  cases value with
  | none => exact .pendingOnly _
  | some value => exact (Synced.pendingOnly _).trans (.resume value k)

/-! ### Timers and the start of a scene -/

theorem clearTimers_eq (doc : Document) (e : CollabEngine) : ∃ timers debounceTimer cursorTimer,
    e.clearTimers doc = { e with timers, debounceTimer, cursorTimer } := by
  have hdebounce : ∃ timers debounceTimer,
      e.clearDebounce doc = { e with timers, debounceTimer } := by
    unfold clearDebounce
    split
    · split
      · exact ⟨_, _, rfl⟩
      · exact ⟨_, _, rfl⟩
    · exact ⟨_, _, rfl⟩
  obtain ⟨timers, debounceTimer, heq⟩ := hdebounce
  unfold clearTimers clearCursor
  rw [heq]
  dsimp only
  split
  · split
    · exact ⟨_, _, _, rfl⟩
    · exact ⟨_, _, _, rfl⟩
  · exact ⟨_, _, _, rfl⟩

@[simp] theorem clearTimers_client : (e.clearTimers doc).client = e.client := by
  obtain ⟨_, _, _, heq⟩ := clearTimers_eq doc e
  rw [heq]

@[simp] theorem clearTimers_state : (e.clearTimers doc).state = e.state := by
  obtain ⟨_, _, _, heq⟩ := clearTimers_eq doc e
  rw [heq]

@[simp] theorem resetState_client : (e.resetState doc).client = e.client := clearTimers_client

@[simp] theorem resetState_phase : (e.resetState doc).state.phase = .disconnected := rfl

theorem triggerSceneInit_cases (h : e.triggerSceneInit = some e') :
    e' = e.updateState (fun s => { s with isInitialized := true }) ∨
      ∃ e₁, e.send none .sceneInitRequest = some e₁ ∧ e' = { e₁ with initRequestSent := true } := by
  unfold triggerSceneInit at h
  split at h
  · exact Or.inl (Option.some.inj h).symm
  · obtain ⟨e₁, hsend, rfl⟩ := Option.map_eq_some_iff.mp h
    exact Or.inr ⟨e₁, hsend, rfl⟩

theorem triggerSceneInit_keeps (h : e.triggerSceneInit = some e') :
    e.client.Sends e'.client ∧ e'.state.phase = e.state.phase := by
  obtain rfl | ⟨e₁, hsend, rfl⟩ := triggerSceneInit_cases h
  · exact ⟨.refl _, rfl⟩
  · have hsynced := Synced.send (by simp) hsend
    exact ⟨hsynced.client, hsynced.phase⟩

/-! ### Callbacks -/

theorem onEvent_keeps (event : CollabEvent) :
    e.client.Sends (e.onEvent doc event).client ∧
      (e.onEvent doc event).state.phase = e.state.phase := by
  have hsync : ∀ e₁ : CollabEngine, e.client.Sends e₁.client → e₁.state.phase = e.state.phase →
      e.client.Sends (e₁.handleSyncEvent doc event).client ∧
        (e₁.handleSyncEvent doc event).state.phase = e.state.phase := fun e₁ hclient hphase =>
    ⟨hclient.trans (Synced.handleSyncEvent event).client,
      (Synced.handleSyncEvent event).phase.trans hphase⟩
  unfold onEvent
  split
  · rename_i rj _
    dsimp only
    split
    · split
      · exact ⟨.refl _, rfl⟩
      · rename_i e₁ htrigger
        obtain ⟨hclient, hphase⟩ := triggerSceneInit_keeps htrigger
        exact hsync e₁ hclient hphase
    · exact hsync _ (.refl _) rfl
  · exact hsync e (.refl _) rfl

/-- The phase after a callback. -/
def phaseAfter (e : CollabEngine) : Callback → Phase
  | .onConnect _ => .connected
  | .onErrorEvent .. => if e.client.isConnected then e.state.phase else .disconnected
  | .onCredentialsChanged _ | .onDisconnect | .onSessionEnded _ => .disconnected
  | _ => e.state.phase

theorem call_phase (callback : Callback) :
    (e.call doc callback).state.phase = e.phaseAfter callback := by
  cases callback with
  | onEvent event => exact (onEvent_keeps event).2
  | onPeerJoined peer =>
    unfold call
    dsimp only
    split <;> rfl
  | onPeerLeft clientId =>
    unfold call
    dsimp only
    split <;> rfl
  | onErrorEvent code message =>
    unfold call phaseAfter
    dsimp only
    split <;> rfl
  | _ => rfl

theorem call_client (callback : Callback) : e.client.Sends (e.call doc callback).client := by
  cases callback with
  | onEvent event => exact (onEvent_keeps event).1
  | onPeerJoined peer =>
    unfold call
    dsimp only
    split <;> exact .refl _
  | onPeerLeft clientId =>
    unfold call
    dsimp only
    split <;> exact .refl _
  | onErrorEvent code message =>
    unfold call
    dsimp only
    split <;> exact .refl _
  | onCredentialsChanged | onDisconnect | onSessionEnded =>
    exact (show e.client.Sends (e.resetState doc).client by rw [resetState_client]; exact .refl _)
  | _ => exact .refl _

/-- A join tells the engine its id and its peers. -/
theorem handleRoomJoined_eq (doc : Document) (e : CollabEngine) (rj : RoomJoined) :
    ∃ client clientId peers, client.isConnected = true ∧
      (page doc).handleRoomJoined rj e = { e with
        client
        state := { e.state with phase := .connected, clientId, error := none, peers } } := by
  -- each callback of the loop changes the peers of the engine and of the client
  have hpeer : ∀ client clientId peers (peer : PeerInfoJson), client.isConnected = true →
      ∃ client' peers', client'.isConnected = true ∧
        (page doc).addPeer peer { e with
          client
          state := { e.state with phase := .connected, clientId, error := none, peers } } =
        { e with
          client := client'
          state := { e.state with
            phase := .connected, clientId, error := none, peers := peers' } } := by
    intro client clientId peers peer hup
    have hset : (client.setPeer peer).isConnected = true := by
      unfold CollabClient.setPeer
      split <;> exact hup
    by_cases hid : peer.clientId = ""
    · exact ⟨_, peers, hset, if_pos hid⟩
    · exact ⟨_, peers.insert peer.clientId peer, hset, if_neg hid⟩
  -- induction on the peers still to announce
  have hpeers : ∀ (entries : List (String × PeerInfo)) client clientId peers,
      client.isConnected = true → ∃ client' peers', client'.isConnected = true ∧
        entries.foldl (fun e entry => (page doc).addPeer (peerToJson entry.2) e) { e with
          client
          state := { e.state with phase := .connected, clientId, error := none, peers } } =
        { e with
          client := client'
          state := { e.state with
            phase := .connected, clientId, error := none, peers := peers' } } := by
    intro entries
    induction entries with
    | nil => exact fun _ _ _ hup => ⟨_, _, hup, rfl⟩
    | cons entry entries ih =>
      intro client clientId peers hup
      obtain ⟨client', peers', hup', heq⟩ := hpeer _ clientId peers (peerToJson entry.2) hup
      rw [List.foldl_cons, heq]
      exact ih _ _ _ hup'
  have hjoined : (e.client.setRoom rj).isConnected = true := rfl
  obtain ⟨client, peers, hup, hself⟩ := hpeer { e.client.setRoom rj with peers := ∅ } rj.clientId
    e.state.peers (e.client.setRoom rj).self hjoined
  obtain ⟨client', peers', hup', heq⟩ := hpeers rj.room.peers client rj.clientId peers hup
  refine ⟨client', rj.clientId, peers', hup', ?_⟩
  rw [← heq, ← hself]
  rfl

/-! ### What the client's own methods leave alone -/

/-- No effect, and nothing about the asynchronous calls and the key. -/
structure Quiet (e e' : CollabEngine) : Prop where
  log : e'.log = e.log
  pending : e'.pending = e.pending
  started : e'.started = e.started
  encryptionKey : e'.encryptionKey = e.encryptionKey

theorem Quiet.refl (e : CollabEngine) : Quiet e e := ⟨rfl, rfl, rfl, rfl⟩

theorem Quiet.trans (h : Quiet e e') (h' : Quiet e' e'') : Quiet e e'' :=
  ⟨h'.log.trans h.log, h'.pending.trans h.pending, h'.started.trans h.started,
    h'.encryptionKey.trans h.encryptionKey⟩

theorem quiet_clearTimers : Quiet e (e.clearTimers doc) := by
  obtain ⟨_, _, _, heq⟩ := clearTimers_eq doc e
  rw [heq]
  exact ⟨rfl, rfl, rfl, rfl⟩

theorem within_quiet (doc : Document) : (page doc).Within Quiet where
  refl := .refl
  trans h h' := h.trans h'
  modify _ _ := ⟨rfl, rfl, rfl, rfl⟩
  call callback e hstatus := by
    cases callback with
    | onDisconnect | onSessionEnded =>
      have hclear : Quiet e (e.clearTimers doc) := quiet_clearTimers
      exact ⟨hclear.log, hclear.pending, hclear.started, hclear.encryptionKey⟩
    | onError | onReconnecting => exact ⟨rfl, rfl, rfl, rfl⟩
    | _ => simp [Callback.isStatus] at hstatus

/-- All that it has done since is like this. -/
def Logs (P : Option Nat × Effect → Prop) (e e' : CollabEngine) : Prop :=
  ∃ log, e'.log = e.log ++ log ∧ ∀ x ∈ log, P x

theorem Logs.of_eq {P : Option Nat × Effect → Prop} (h : e'.log = e.log) : Logs P e e' :=
  ⟨[], by rw [h, List.append_nil], by simp⟩

theorem Logs.trans {P : Option Nat × Effect → Prop} (h : Logs P e e') (h' : Logs P e' e'') :
    Logs P e e'' := by
  obtain ⟨log, heq, hlog⟩ := h
  obtain ⟨log', heq', hlog'⟩ := h'
  refine ⟨log ++ log', by rw [heq', heq, List.append_assoc], fun x hx => ?_⟩
  exact (List.mem_append.mp hx).elim (hlog x) (hlog' x)

theorem Logs.mono {P P' : Option Nat × Effect → Prop} (h : Logs P e e') (hP : ∀ x, P x → P' x) :
    Logs P' e e' := by
  obtain ⟨log, heq, hlog⟩ := h
  exact ⟨log, heq, fun x hx => hP x (hlog x hx)⟩

/-- Nothing but cursors that were removed. -/
structure Aside (e e' : CollabEngine) : Prop where
  log : Logs (fun x => ∃ adapter clientId, x = (none, .call adapter (.removePeerCursor clientId)))
    e e'
  pending : e'.pending = e.pending
  started : e'.started = e.started
  encryptionKey : e'.encryptionKey = e.encryptionKey

theorem Quiet.aside (h : Quiet e e') : Aside e e' :=
  ⟨.of_eq h.log, h.pending, h.started, h.encryptionKey⟩

theorem Aside.trans (h : Aside e e') (h' : Aside e' e'') : Aside e e'' :=
  ⟨h.log.trans h'.log, h'.pending.trans h.pending, h'.started.trans h.started,
    h'.encryptionKey.trans h.encryptionKey⟩

/-- Every callback but `onEvent`. -/
theorem aside_call (callback : Callback) (hevent : callback.isEvent = false) :
    Aside e (e.call doc callback) := by
  have hreset : Quiet e (e.resetState doc) := quiet_clearTimers.trans ⟨rfl, rfl, rfl, rfl⟩
  cases callback with
  | onEvent event => simp [Callback.isEvent] at hevent
  | onPeerLeft clientId =>
    unfold call
    dsimp only
    split
    · exact Quiet.aside ⟨rfl, rfl, rfl, rfl⟩
    · refine ⟨⟨[_], rfl, fun x hx => ?_⟩, rfl, rfl, rfl⟩
      exact ⟨_, clientId, List.mem_singleton.mp hx⟩
  | onPeerJoined peer =>
    unfold call
    dsimp only
    split
    · exact (Quiet.refl e).aside
    · exact Quiet.aside ⟨rfl, rfl, rfl, rfl⟩
  | onErrorEvent code message =>
    unfold call
    dsimp only
    split
    · exact (Quiet.refl e).aside
    · exact Quiet.aside ⟨rfl, rfl, rfl, rfl⟩
  | onCredentialsChanged | onDisconnect | onSessionEnded =>
    exact Quiet.aside ⟨hreset.log, hreset.pending, hreset.started, hreset.encryptionKey⟩
  | _ => exact Quiet.aside ⟨rfl, rfl, rfl, rfl⟩

theorem within_aside (doc : Document) : (page doc).Within Aside where
  refl e := (Quiet.refl e).aside
  trans h h' := h.trans h'
  modify t hf := ((within_quiet doc).modify t hf).aside
  call callback t hstatus := ((within_quiet doc).call callback t hstatus).aside

/-- The client goes on with an event after `onEvent`. -/
theorem receive_aside (event : CollabEvent) :
    Aside (e.call doc (.onEvent event)) (e.receive doc event) := by
  unfold receive
  split
  · exact (Quiet.refl _).aside
  · have hrest := (within_aside doc).handleEvent event (t := e) fun callback _ hfollows =>
      aside_call callback (Callback.isEvent_of_follows hfollows)
    exact hrest.trans (Quiet.aside ⟨rfl, rfl, rfl, rfl⟩)

theorem quiet_run {job : Job} (hmessage : ∀ socket event, job ≠ .message socket event)
    (hrun : e.run doc job = some e') : Quiet e e' := by
  by_cases hopened : ∃ socket, job = .opened socket
  · obtain ⟨socket, rfl⟩ := hopened
    obtain ⟨-, rfl⟩ := Page.settle_eq_some.mp hrun
    exact ⟨rfl, rfl, rfl, rfl⟩
  · refine (within_quiet doc).run (fun socket h => hopened ⟨socket, h⟩) hmessage (s := e) ?_
    cases job with
    | message socket event => exact absurd rfl (hmessage socket event)
    | _ => exact hrun

end CollabEngine

end MassRelay.Ts

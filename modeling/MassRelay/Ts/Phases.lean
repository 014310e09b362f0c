import MassRelay.Lib.Machine
import MassRelay.Ts.Effects

/-!
# MassRelay.Ts.Phases

The phase of an engine and the state of its client.

The engine hears of its client's transitions through callbacks, and some of them make none: a
`disconnect`, a socket that closes or a token that is refused before the join; others make one
that says too much, as a `CredentialsChanged` does while the client stays connected, or a retry of
an earlier connection that gives up. `InStep` says which moves come with such a transition. The
phase follows the client throughout a run exactly when it has none of them.
-/

namespace MassRelay.Ts

/-- The job ends the session of the client, from whatever state that is in. -/
def CollabClient.gaveUp (c : CollabClient) : Job → Bool
  | .checked _ status => !c.explicitDisconnect &&
      (status = some 404 || (status ≠ some 200 && decide (c.retryCount ≥ c.maxRetries)))
  | .tokenFailed .. =>
    !c.explicitDisconnect && c.hasJoined && decide (c.retryCount ≥ c.maxRetries)
  | _ => false

namespace CollabEngine

variable {doc : Document} {e e' : CollabEngine}

/-- The phase tells what state the client is in. -/
structure Follows (doc : Document) (e : CollabEngine) : Prop where
  connected : e.state.phase = .connected ↔ e.client.isConnected = true
  connecting : e.state.phase = .connecting → e.client.isConnecting = true
  disconnected : e.state.phase = .disconnected → ∀ params, e.connect doc params ≠ none

/-- The move is no transition of the client that the engine does not hear of, or mistakes. -/
def InStep (e : CollabEngine) : EngineMove → Prop
  | .call (.connect _) => e.client.isConnected = false
  | .call .disconnect | .call .dispose => e.state.phase ≠ .connecting
  | .job (.closed socket) => e.client.grpc = some socket → e.state.phase ≠ .connecting
  | .job (.message _ { event := .credentialsChanged _, .. }) => e.client.isConnected = false
  | .job (.tokenFailed request message) => e.state.phase ≠ .connecting ∧
      (e.client.isConnected = true → e.client.gaveUp (.tokenFailed request message) = false)
  | .job job => e.client.isConnected = true → e.client.gaveUp job = false
  | _ => True

/-- A client that connects has not joined, and nobody has called it off. -/
structure InPhase (e : CollabEngine) : Prop where
  connected : e.state.phase = .connected ↔ e.client.isConnected = true
  connecting : e.state.phase = .connecting → e.client.isConnecting = true
  trying : e.state.phase = .connecting →
    e.client.hasJoined = false ∧ e.client.explicitDisconnect = false

/-- Both are disconnected. -/
structure Down (e : CollabEngine) : Prop where
  phase : e.state.phase = .disconnected
  client : e.client.isConnected = false

/-- Both are connected. -/
structure Up (e : CollabEngine) : Prop where
  phase : e.state.phase = .connected
  client : e.client.isConnected = true

theorem connect_eq_none {params : ConnectArgs} :
    e.connect doc params = none ↔ e.client.isConnected = true := by
  unfold connect Page.connect
  split
  · rename_i h
    exact iff_of_true rfl h
  · rename_i h
    exact iff_of_false (by simp) h

theorem InPhase.follows (h : InPhase e) : Follows doc e where
  connected := h.connected
  connecting := h.connecting
  disconnected hphase params hnone := by
    have := h.connected.mpr (connect_eq_none.mp hnone)
    simp [hphase] at this

theorem Down.inPhase (h : Down e) : InPhase e where
  connected := by simp [h.phase, h.client]
  connecting := by simp [h.phase]
  trying := by simp [h.phase]

theorem Up.inPhase (h : Up e) : InPhase e where
  connected := by simp [h.phase, h.client]
  connecting := by simp [h.phase]
  trying := by simp [h.phase]

/-- What has no phase of its own, and whose client has only sent something. -/
theorem InPhase.congr (h : InPhase e) (hphase : e'.state.phase = e.state.phase)
    (hclient : e.client.Sends e'.client) : InPhase e' where
  connected := by rw [hphase, hclient.isConnected, h.connected]
  connecting := by
    rw [hphase, hclient.isConnecting]
    exact h.connecting
  trying := by
    rw [hphase, hclient.hasJoined, hclient.explicitDisconnect]
    exact h.trying

theorem InPhase.synced (h : InPhase e) (hsynced : Synced e e') : InPhase e' :=
  h.congr hsynced.phase hsynced.client

/-- A client with the same state. -/
theorem InPhase.modify (h : InPhase e) {f : CollabClient → CollabClient}
    (hconnected : (f e.client).isConnected = e.client.isConnected)
    (hconnecting : (f e.client).isConnecting = e.client.isConnecting)
    (hjoined : (f e.client).hasJoined = e.client.hasJoined)
    (hexplicit : (f e.client).explicitDisconnect = e.client.explicitDisconnect) :
    InPhase ((page doc).modify f e) where
  connected := by
    change _ ↔ (f e.client).isConnected = true
    rw [hconnected]
    exact h.connected
  connecting := by
    change _ → (f e.client).isConnecting = true
    rw [hconnecting]
    exact h.connecting
  trying := by
    change _ → (f e.client).hasJoined = false ∧ (f e.client).explicitDisconnect = false
    rw [hjoined, hexplicit]
    exact h.trying

theorem InPhase.disconnected (h : InPhase e) (hdown : e.client.isConnected = false)
    (hphase : e.state.phase ≠ .connecting) : Down e where
  phase := by
    cases hphase' : e.state.phase with
    | disconnected => rfl
    | connecting => exact absurd hphase' hphase
    | connected => simp [h.connected.mp hphase'] at hdown
  client := hdown

/-! ### The methods of the client -/

/-- The callbacks that leave the engine disconnected. -/
theorem down_call (callback : Callback) (hdown : e.client.isConnected = false)
    (hphase : e.phaseAfter callback = .disconnected) : Down (e.call doc callback) where
  phase := (call_phase callback).trans hphase
  client := (call_client _).isConnected.trans hdown

theorem Down.call (h : Down e) (callback : Callback) (hcallback : ∀ id, callback ≠ .onConnect id) :
    Down (e.call doc callback) := by
  refine down_call callback h.client ?_
  cases callback with
  | onConnect id => exact absurd rfl (hcallback id)
  | onErrorEvent => simp [phaseAfter, h.client]
  | onCredentialsChanged | onDisconnect | onSessionEnded => rfl
  | _ => exact h.phase

theorem Down.modify (h : Down e) {f : CollabClient → CollabClient}
    (hf : (f e.client).isConnected = false) : Down ((page doc).modify f e) := ⟨h.phase, hf⟩

theorem addPeer_eq (peer : PeerInfoJson) : (page doc).addPeer peer e =
    ((page doc).modify (.setPeer peer) e).call doc (.onPeerJoined peer) := rfl

theorem endSession_eq (reason : String) : (page doc).endSession reason e =
    ((page doc).modify
      (fun c => { c with explicitDisconnect := true, isConnecting := false }) e).call
      doc (.onSessionEnded reason) := rfl

theorem InPhase.addPeer (h : InPhase e) (peer : PeerInfoJson) :
    InPhase ((page doc).addPeer peer e) := by
  have hset : InPhase ((page doc).modify (.setPeer peer) e) := by
    refine h.modify ?_ ?_ ?_ ?_ <;>
    · unfold CollabClient.setPeer
      split <;> rfl
  rw [addPeer_eq]
  exact hset.congr (call_phase _) (call_client _)

/-- Whatever the phase was, if the client was connected. -/
theorem down_reset (h : InPhase e) (hphase : e.state.phase ≠ .connecting)
    {f : CollabClient → CollabClient} (hf : (f e.client).isConnected = false) :
    Down (if e.client.isConnected then ((page doc).modify f e).call doc .onDisconnect
      else (page doc).modify f e) := by
  split
  · exact down_call .onDisconnect hf rfl
  · rename_i hdown
    exact (h.disconnected (by simpa using hdown) hphase).modify hf

theorem closeFromRelay_isConnected : ((page doc).closeFromRelay e).client.isConnected = false := by
  have hclose : (({ e.client with explicitDisconnect := true }.resetState.close
      e.client.grpc)).isConnected = false := by simp [CollabClient.resetState]
  unfold Page.closeFromRelay
  dsimp only
  split
  · exact (call_client _).isConnected.trans hclose
  · exact hclose

theorem Down.closeFromRelay (h : Down e) : Down ((page doc).closeFromRelay e) := by
  refine ⟨?_, closeFromRelay_isConnected⟩
  have hdown : ((page doc).client e).isConnected = false := h.client
  unfold Page.closeFromRelay
  simp only [hdown, Bool.false_eq_true, if_false]
  exact h.phase

theorem down_endSession (hdown : e.client.isConnected = false) (reason : String) :
    Down ((page doc).endSession reason e) := by
  rw [endSession_eq]
  exact down_call _ hdown rfl

theorem Down.scheduleReconnect (h : Down e) : Down ((page doc).scheduleReconnect e) := by
  unfold Page.scheduleReconnect
  split
  · exact down_endSession h.client _
  · exact ⟨h.phase, h.client⟩

theorem scheduleReconnect_eq (doc : Document)
    (hretries : e.client.retryCount < e.client.maxRetries) :
    ∃ delay, (page doc).scheduleReconnect e = { e with
      client := { e.client with
        retryCount := e.client.retryCount + 1
        isConnecting := true }.setTimeout delay } :=
  ⟨_, if_neg (Nat.not_le_of_lt hretries)⟩

/-- A client that retries is connecting, whatever it was before. -/
theorem inPhase_scheduleReconnect
    (hconnected : e.state.phase = .connected ↔ e.client.isConnected = true)
    (htrying : e.state.phase = .connecting →
      e.client.hasJoined = false ∧ e.client.explicitDisconnect = false)
    (hretries : e.client.isConnected = true → e.client.retryCount < e.client.maxRetries) :
    InPhase ((page doc).scheduleReconnect e) := by
  by_cases hleft : e.client.retryCount < e.client.maxRetries
  · obtain ⟨delay, heq⟩ := scheduleReconnect_eq doc hleft
    rw [heq]
    exact ⟨hconnected, fun _ => rfl, htrying⟩
  · have hdown : e.client.isConnected = false := by
      rw [← Bool.not_eq_true]
      exact fun hup => hleft (hretries hup)
    have hend : (page doc).scheduleReconnect e = (page doc).endSession "reconnect_failed" e :=
      if_pos (Nat.not_lt.mp hleft)
    rw [hend]
    exact (down_endSession hdown _).inPhase

theorem InPhase.dropAndReconnect (h : InPhase e) :
    InPhase ((page doc).dropAndReconnect e) := by
  have hreset : (e.client.resetState.close e.client.grpc).isConnected = false := by
    simp [CollabClient.resetState]
  unfold Page.dropAndReconnect
  dsimp only
  by_cases hphase : e.state.phase = .connecting
  · have hdown : ((page doc).client e).isConnected = false := by
      rw [← Bool.not_eq_true]
      exact fun hup => by simp [h.connected.mpr hup] at hphase
    simp only [hdown, Bool.false_eq_true, if_false]
    refine inPhase_scheduleReconnect ?_ (fun _ => ?_) (fun hup => ?_)
    · exact iff_of_false (by simp [Page.modify, page, hphase])
        (fun hup => Bool.false_ne_true (hreset.symm.trans hup))
    · simpa [Page.modify, page, CollabClient.resetState] using h.trying hphase
    · exact absurd (hreset.symm.trans hup) Bool.false_ne_true
  · exact (Down.scheduleReconnect (down_reset h hphase hreset)).inPhase

theorem InPhase.handleError (h : InPhase e) (err : ErrorEvent) :
    InPhase ((page doc).handleError err e) := by
  have hclient : (e.call doc (.onErrorEvent err.code err.message)).client.isConnected =
      e.client.isConnected := (call_client _).isConnected
  unfold Page.handleError
  dsimp only
  split
  · rename_i hup
    refine h.congr ?_ (call_client _)
    exact (call_phase _).trans (if_pos (hclient.symm.trans hup))
  · rename_i hdown
    have hdown' : e.client.isConnected = false := by
      rw [← Bool.not_eq_true, ← hclient]
      exact hdown
    have hrefused : Down (e.call doc (.onErrorEvent err.code err.message)) :=
      down_call _ hdown' (by simp [phaseAfter, hdown'])
    have hclose :
        Down ((page doc).closeFromRelay (e.call doc (.onErrorEvent err.code err.message))) :=
      hrefused.closeFromRelay
    split
    · exact (hclose.call (.onSessionEnded "session_gone") (by simp)).inPhase
    · exact hclose.inPhase

theorem inPhase_handleRoomJoined (rj : RoomJoined) :
    InPhase ((page doc).handleRoomJoined rj e) := by
  obtain ⟨_, _, _, hup, heq⟩ := handleRoomJoined_eq doc e rj
  rw [heq]
  exact Up.inPhase ⟨rfl, hup⟩

theorem InPhase.handleSessionEnded (h : InPhase e) (reason : String) :
    InPhase ((page doc).handleSessionEnded reason e) := by
  unfold Page.handleSessionEnded
  split
  · exact h.dropAndReconnect
  · exact (down_call (.onSessionEnded reason) closeFromRelay_isConnected rfl).inPhase

/-- An event, unless it is a `CredentialsChanged` for a client that stays connected. -/
theorem InPhase.handleEvent (h : InPhase e) (event : CollabEvent)
    (hcredentials : ∀ cc, event.event = .credentialsChanged cc → e.client.isConnected = false) :
    InPhase ((page doc).handleEvent event e) := by
  have hevent : InPhase (e.call doc (.onEvent event)) := h.congr (call_phase _) (call_client _)
  unfold Page.handleEvent
  dsimp only
  cases hkind : event.event with
  | error err => exact hevent.handleError err
  | roomJoined rj => exact inPhase_handleRoomJoined rj
  | peerJoined peer => exact hevent.addPeer _
  | peerLeft left => exact (hevent.modify rfl rfl rfl rfl).congr (call_phase _) (call_client _)
  | sessionEnded reason => exact hevent.handleSessionEnded reason
  | ownerChanged newOwnerId =>
    exact (hevent.modify rfl rfl rfl rfl).congr (call_phase _) (call_client _)
  | credentialsChanged cc =>
    have hdown : (e.call doc (.onEvent event)).client.isConnected = false :=
      (call_client _).isConnected.trans (hcredentials cc hkind)
    exact (down_call (.onCredentialsChanged cc.reason) hdown rfl).inPhase
  | titleChanged tc => exact (hevent.modify rfl rfl rfl rfl).congr (call_phase _) (call_client _)
  | appMessage msg => exact hevent
  | presence | sceneUpdate | cursorUpdate | textUpdate | sceneInitResponse | sceneInitRequest =>
    exact hevent

theorem InPhase.receive (h : InPhase e) (event : CollabEvent)
    (hcredentials : ∀ cc, event.event = .credentialsChanged cc → e.client.isConnected = false) :
    InPhase (e.receive doc event) := by
  unfold CollabEngine.receive
  split
  · exact h.congr (call_phase _) (call_client _)
  · have hhandled : InPhase ((page doc).handleEvent event e) := h.handleEvent event hcredentials
    exact ⟨hhandled.connected, hhandled.connecting, hhandled.trying⟩

/-! ### Jobs -/

theorem InPhase.endTask (h : InPhase e) (task : Task) :
    InPhase ((page doc).modify (.endTask task) e) := h.modify rfl rfl rfl rfl

theorem InPhase.scheduleReconnect (h : InPhase e)
    (hretries : e.client.isConnected = true → e.client.retryCount < e.client.maxRetries) :
    InPhase ((page doc).scheduleReconnect e) :=
  inPhase_scheduleReconnect h.connected h.trying hretries

theorem InPhase.handleConnectionClosed (h : InPhase e) (hphase : e.state.phase ≠ .connecting) :
    InPhase ((page doc).handleConnectionClosed e) := by
  have hreset : Down (if e.client.isConnected then
      ((page doc).modify .resetState e).call doc .onDisconnect
      else (page doc).modify .resetState e) := down_reset h hphase rfl
  have hrest : ∀ t : CollabEngine, Down t → InPhase
      (if !((page doc).client t).explicitDisconnect && ((page doc).client t).hasJoined &&
        ((page doc).client t).reconnectEnabled then (page doc).scheduleReconnect t else t) := by
    intro t ht
    split
    · exact ht.scheduleReconnect.inPhase
    · exact ht.inPhase
  exact hrest _ hreset

/-- A room check that does not end the session of a connected client. -/
theorem InPhase.roomChecked (h : InPhase e) (fetch : Nat) {status : Option Nat}
    (hgaveUp : e.client.isConnected = true → e.client.gaveUp (.checked fetch status) = false) :
    InPhase ((page doc).roomChecked status e) := by
  unfold Page.roomChecked
  split
  · exact h
  · rename_i hexplicit
    have hon : e.client.explicitDisconnect = false := by simpa [page] using hexplicit
    split
    · rename_i hgone
      refine (down_endSession ?_ _).inPhase
      rw [← Bool.not_eq_true]
      exact fun hup => by simp [CollabClient.gaveUp, hon, hgone] at hgaveUp; simp [hgaveUp] at hup
    · split
      · exact h.modify CollabClient.openWithToken_isConnected
          (by unfold CollabClient.openWithToken; split <;> rfl)
          CollabClient.openWithToken_hasJoined CollabClient.openWithToken_explicitDisconnect
      · rename_i hgone hfound
        refine h.scheduleReconnect fun hup => ?_
        have := hgaveUp hup
        simpa [CollabClient.gaveUp, hon, hgone, hfound] using this

theorem InPhase.getTokenFailed (h : InPhase e) (request : Nat) {message : String}
    (hphase : e.state.phase ≠ .connecting)
    (hgaveUp : e.client.isConnected = true →
      e.client.gaveUp (.tokenFailed request message) = false) :
    InPhase ((page doc).getTokenFailed message e) := by
  have hcall : (page doc).call (.onError message) e =
      e.updateState fun s => { s with error := some message } := rfl
  have herror : InPhase (e.updateState fun s => { s with error := some message }) :=
    ⟨h.connected, h.connecting, h.trying⟩
  unfold Page.getTokenFailed
  rw [hcall]
  dsimp only
  split
  · exact herror
  · rename_i hexplicit
    have hon : e.client.explicitDisconnect = false := by simpa [page, updateState] using hexplicit
    split
    · rename_i hjoined
      refine herror.scheduleReconnect fun hup => ?_
      have := hgaveUp hup
      have hjoined : e.client.hasJoined = true := hjoined
      simpa [CollabClient.gaveUp, hon, hjoined, updateState] using this
    · exact ⟨herror.connected, fun h => absurd h hphase, fun h => absurd h hphase⟩

theorem InPhase.run {job : Job} (h : InPhase e) (hG : InStep e (.job job))
    (hrun : e.run doc job = some e') : InPhase e' := by
  cases job with
  | message socket event =>
    obtain ⟨-, heq⟩ := Option.ite_none_right_eq_some.mp hrun
    refine Option.some.inj heq ▸ h.receive event ?_
    obtain ⟨eventId, fromClientId, kind⟩ := event
    rintro cc rfl
    exact hG
  | opened socket =>
    obtain ⟨-, rfl⟩ := Page.settle_eq_some.mp hrun
    refine (h.endTask _).modify ?_ ?_ ?_ ?_ <;> simp
  | refused socket =>
    obtain ⟨-, rfl⟩ := Page.settle_eq_some.mp hrun
    exact h.endTask _
  | closed socket =>
    obtain ⟨-, heq⟩ := Option.ite_none_right_eq_some.mp hrun
    obtain rfl := Option.some.inj heq
    have herase : InPhase ((page doc).modify
        (fun c => { c with sockets := c.sockets.erase socket }) e) := h.modify rfl rfl rfl rfl
    split
    · rename_i hgrpc
      exact herase.handleConnectionClosed (hG hgrpc)
    · exact herase
  | failed socket message =>
    obtain ⟨-, heq⟩ := Option.ite_none_right_eq_some.mp hrun
    have herror : InPhase (e.call doc (.onError message)) := h.congr (call_phase _) (call_client _)
    exact Option.some.inj heq ▸ herror
  | fired timer =>
    obtain ⟨-, rfl⟩ := Page.settle_eq_some.mp hrun
    exact (h.endTask _).modify rfl rfl rfl rfl
  | checked fetch status =>
    obtain ⟨-, rfl⟩ := Page.settle_eq_some.mp hrun
    exact (h.endTask _).roomChecked fetch hG
  | gotToken request token =>
    obtain ⟨-, rfl⟩ := Page.settle_eq_some.mp hrun
    unfold Page.gotToken
    split
    · exact h.endTask _
    · exact (h.endTask _).modify rfl rfl rfl rfl
  | tokenFailed request message =>
    obtain ⟨-, rfl⟩ := Page.settle_eq_some.mp hrun
    exact (h.endTask _).getTokenFailed request hG.1 hG.2

/-! ### Calls of the application -/

theorem InPhase.connect (hdown : e.client.isConnected = false) (params : ConnectArgs) :
    InPhase (e.perform doc (.connect params)) := by
  have heq : e.perform doc (.connect params) =
      (page doc).modify (fun c => (c.connect params).openWithToken) (e.wire params) := by
    have hdown' : ((page doc).client (e.wire params)).isConnected = false := hdown
    simp [perform, CollabEngine.connect, Page.connect, hdown']
  rw [heq]
  refine ⟨iff_of_false (by simp [Page.modify, page, wire, updateState]) ?_, fun _ => ?_,
    fun _ => ?_⟩
  · simp [Page.modify, page, wire, updateState, CollabClient.connect, hdown]
  · change (e.client.connect params).openWithToken.isConnecting = true
    unfold CollabClient.openWithToken
    split <;> rfl
  · simp [Page.modify, page, wire, updateState, CollabClient.connect]

theorem InPhase.disconnect (h : InPhase e) (hphase : e.state.phase ≠ .connecting) :
    InPhase (e.disconnect doc) := by
  have hstop : InPhase ((page doc).modify .stop e) := by
    refine ⟨?_, fun h => absurd h hphase, fun h => absurd h hphase⟩
    change _ ↔ e.client.stop.isConnected = true
    rw [CollabClient.stop_eq]
    exact h.connected.trans (by simp)
  unfold CollabEngine.disconnect Page.disconnect
  dsimp only
  split
  · exact hstop
  · exact (down_reset hstop hphase CollabClient.hangUp_isConnected).inPhase

theorem InPhase.perform {call : EngineCall} (h : InPhase e) (hG : InStep e (.call call)) :
    InPhase (e.perform doc call) := by
  cases call with
  | connect params => exact .connect hG params
  | disconnect => exact h.disconnect hG
  | dispose =>
    have hmark : InPhase { e with disposed := true } := ⟨h.connected, h.connecting, h.trying⟩
    have hend : InPhase (if { e with disposed := true }.state.phase ≠ .disconnected then
        { e with disposed := true }.disconnect doc else { e with disposed := true }) := by
      split
      · exact hmark.disconnect hG
      · exact hmark
    exact hend.congr (by simp [CollabEngine.perform, dispose])
      (by simp [CollabEngine.perform, dispose, CollabClient.Sends.refl])
  | setAdapter adapter =>
    have hset : InPhase { e with adapter } := ⟨h.connected, h.connecting, h.trying⟩
    unfold CollabEngine.perform setAdapter
    dsimp only
    split
    · cases htrigger : { e with adapter }.triggerSceneInit with
      | none => exact hset
      | some e' =>
        obtain ⟨hclient, hphase⟩ := triggerSceneInit_keeps htrigger
        exact hset.congr hphase hclient
    · exact hset
  | setEncryptionKey key => exact ⟨h.connected, h.connecting, h.trying⟩
  | notifyLocalChange =>
    unfold CollabEngine.perform notifyLocalChange
    dsimp only
    split <;> exact ⟨h.connected, h.connecting, h.trying⟩
  | notifyCursorMove =>
    unfold CollabEngine.perform notifyCursorMove
    dsimp only
    split
    · exact h
    · exact ⟨h.connected, h.connecting, h.trying⟩
  | notifyCredentialsChanged reason => exact h.synced (.trySend none (by simp))
  | notifyTitleChanged title => exact h.synced (.trySend none (by simp))

theorem InPhase.fire {timer : Nat} (h : InPhase e) (hfire : e.fire doc timer = some e') :
    InPhase e' := by
  have hclear : InPhase (e.expire timer) := ⟨h.connected, h.connecting, h.trying⟩
  obtain ⟨callback, -, rfl⟩ := Option.map_eq_some_iff.mp hfire
  cases callback with
  | flushOutgoing => exact hclear.synced .flushOutgoing
  | sendCursor =>
    have hready : InPhase { e.expire timer with cursorPending := false } :=
      ⟨h.connected, h.connecting, h.trying⟩
    exact hready.synced .sendCursor

/-- A move that is in step leaves the engine in phase. -/
theorem InPhase.step {m : EngineMove} (h : InPhase e) (hG : InStep e m)
    (hstep : e.step doc m = some e') : InPhase e' := by
  cases m with
  | call call => exact Option.some.inj hstep ▸ h.perform hG
  | job job => exact h.run hG hstep
  | fired timer => exact h.fire hstep
  | settled n value => exact h.synced (Synced.settle hstep)

/-! ### Moves that are not in step -/

/-- The client gave up, and the engine still says that it connects. -/
theorem Follows.isConnecting (h : Follows doc e') (hphase : e'.state.phase = .connecting)
    (hidle : e'.client.isConnecting = false) : False :=
  Bool.false_ne_true (hidle.symm.trans (h.connecting hphase))

/-- The client is connected, and the engine says otherwise. -/
theorem Follows.isConnected (h : Follows doc e') (hphase : e'.state.phase ≠ .connected)
    (hup : e'.client.isConnected = true) : False := hphase (h.connected.mpr hup)

theorem InPhase.not_isConnected (h : InPhase e) (hphase : e.state.phase = .connecting) :
    e.client.isConnected = false := by
  rw [← Bool.not_eq_true]
  exact fun hup => by simp [h.connected.mpr hup] at hphase

theorem disconnect_connecting (doc : Document) (h : InPhase e)
    (hphase : e.state.phase = .connecting) :
    (e.disconnect doc).state.phase = .connecting ∧
      (e.disconnect doc).client.isConnecting = false := by
  have hstop : ((page doc).client ((page doc).modify .stop e)).isConnected = false := by
    rw [Page.client_modify, CollabClient.stop_eq]
    exact CollabClient.clearRetry_isConnected.trans (h.not_isConnected hphase)
  unfold CollabEngine.disconnect Page.disconnect
  simp only [hstop, Bool.false_eq_true, if_false]
  split
  · exact ⟨hphase, by simp [Page.modify, page, CollabClient.stop_eq]⟩
  · exact ⟨hphase, CollabClient.hangUp_isConnecting⟩

theorem endSession_isConnected (doc : Document) (e : CollabEngine) (reason : String) :
    ((page doc).endSession reason e).client.isConnected = e.client.isConnected ∧
      ((page doc).endSession reason e).state.phase = .disconnected := by
  rw [endSession_eq]
  exact ⟨(call_client _).isConnected, call_phase _⟩

/-- A connected client gives up. -/
theorem not_follows_endSession {reason : String} (hup : e.client.isConnected = true)
    (h : Follows doc ((page doc).endSession reason e)) : False := by
  obtain ⟨hconnected, hphase⟩ := endSession_isConnected doc e reason
  exact h.isConnected (by simp [hphase]) (hconnected.trans hup)

theorem scheduleReconnect_of_ge (hretries : e.client.retryCount ≥ e.client.maxRetries) :
    (page doc).scheduleReconnect e = (page doc).endSession "reconnect_failed" e := if_pos hretries

theorem roomChecked_gaveUp (doc : Document) {fetch : Nat} {status : Option Nat}
    (hgaveUp : e.client.gaveUp (.checked fetch status) = true) :
    ∃ reason, (page doc).roomChecked status e = (page doc).endSession reason e := by
  simp only [CollabClient.gaveUp, Bool.and_eq_true, Bool.not_eq_true', Bool.or_eq_true,
    decide_eq_true_eq] at hgaveUp
  obtain ⟨hon, hgone | ⟨hfound, hretries⟩⟩ := hgaveUp
  · exact ⟨_, (if_neg (by simp [page, hon])).trans (if_pos hgone)⟩
  · by_cases hgone : status = some 404
    · exact ⟨_, (if_neg (by simp [page, hon])).trans (if_pos hgone)⟩
    · refine ⟨"reconnect_failed", ?_⟩
      rw [← scheduleReconnect_of_ge hretries]
      exact (if_neg (by simp [page, hon])).trans ((if_neg hgone).trans (if_neg hfound))

theorem getTokenFailed_eq {message : String} (hon : e.client.explicitDisconnect = false) :
    (page doc).getTokenFailed message e =
      if e.client.hasJoined then (page doc).scheduleReconnect (e.call doc (.onError message))
      else (page doc).modify (fun c => { c with isConnecting := false })
        (e.call doc (.onError message)) := by
  have hon' : ((page doc).client (e.call doc (.onError message))).explicitDisconnect = false := hon
  exact if_neg ((Bool.not_eq_true _).mpr hon')

theorem handleConnectionClosed_connecting (doc : Document) (h : InPhase e)
    (hphase : e.state.phase = .connecting) :
    ((page doc).handleConnectionClosed e).state.phase = .connecting ∧
      ((page doc).handleConnectionClosed e).client.isConnecting = false := by
  have hdown : ((page doc).client e).isConnected = false := h.not_isConnected hphase
  have hjoined : ((page doc).client ((page doc).modify .resetState e)).hasJoined = false :=
    (h.trying hphase).1
  unfold Page.handleConnectionClosed
  simp only [hdown, Bool.false_eq_true, if_false, hjoined, Bool.and_false, Bool.false_and]
  exact ⟨hphase, rfl⟩

/-- The phase follows the client after no other move. -/
theorem InPhase.inStep {m : EngineMove} (h : InPhase e) (hstep : e.step doc m = some e')
    (hfollows : Follows doc e') : InStep e m := by
  cases m with
  | call call =>
    obtain rfl := Option.some.inj hstep
    cases call with
    | connect params =>
      change e.client.isConnected = false
      rw [← Bool.not_eq_true]
      intro hup
      -- `connect` throws after the phase was set, and the client stays connected
      have heq : e.perform doc (.connect params) = e.wire params := by
        change (e.connect doc params).getD (e.wire params) = _
        rw [connect_eq_none.mpr hup, Option.getD_none]
      rw [heq] at hfollows
      exact hfollows.isConnected (by simp [wire, updateState]) hup
    | disconnect =>
      intro hphase
      obtain ⟨hstill, hidle⟩ := disconnect_connecting doc h hphase
      exact hfollows.isConnecting hstill hidle
    | dispose =>
      intro hphase
      have hmark : InPhase { e with disposed := true } := ⟨h.connected, h.connecting, h.trying⟩
      obtain ⟨hstill, hidle⟩ := disconnect_connecting doc hmark hphase
      have heq : e.perform doc .dispose =
          ({ e with disposed := true }.disconnect doc).clearTimers doc :=
        congrArg (clearTimers doc) (if_pos (by simp [hphase]))
      rw [heq] at hfollows
      exact hfollows.isConnecting (by rw [clearTimers_state]; exact hstill)
        (by rw [clearTimers_client]; exact hidle)
    | _ => trivial
  | job job =>
    cases job with
    | closed socket =>
      intro hgrpc hphase
      obtain ⟨-, heq⟩ := Option.ite_none_right_eq_some.mp hstep
      obtain rfl := Option.some.inj heq
      have herase : InPhase ((page doc).modify
          (fun c => { c with sockets := c.sockets.erase socket }) e) := h.modify rfl rfl rfl rfl
      rw [if_pos (by exact hgrpc)] at hfollows
      obtain ⟨hstill, hidle⟩ := handleConnectionClosed_connecting doc herase hphase
      exact hfollows.isConnecting hstill hidle
    | message socket event =>
      obtain ⟨eventId, fromClientId, kind⟩ := event
      cases kind with
      | credentialsChanged cc =>
        change e.client.isConnected = false
        rw [← Bool.not_eq_true]
        intro hup
        obtain ⟨-, heq⟩ := Option.ite_none_right_eq_some.mp hstep
        obtain rfl := Option.some.inj heq
        -- the engine is reset, but the client stays connected
        have hsends : e.client.Sends ((e.call doc (.onEvent
            ⟨eventId, fromClientId, .credentialsChanged cc⟩)).call doc
              (.onCredentialsChanged cc.reason)).client := (call_client _).trans (call_client _)
        refine hfollows.isConnected (?_ : Phase.disconnected ≠ .connected) ?_
        · simp
        · exact hsends.isConnected.trans hup
      | _ => exact fun _ => rfl
    | checked fetch status =>
      intro hup
      rw [← Bool.not_eq_true]
      intro hgaveUp
      obtain ⟨-, rfl⟩ := Page.settle_eq_some.mp hstep
      -- giving up resets the engine while the client is connected
      have hend : ((page doc).modify (.endTask (.roomCheck fetch)) e).client.gaveUp
          (.checked fetch status) = true := hgaveUp
      obtain ⟨reason, heq⟩ := roomChecked_gaveUp doc hend
      rw [heq] at hfollows
      exact not_follows_endSession (by exact hup) hfollows
    | tokenFailed request message =>
      obtain ⟨-, rfl⟩ := Page.settle_eq_some.mp hstep
      have hend : InPhase ((page doc).modify (.endTask (.token request)) e) := h.endTask _
      constructor
      · intro hphase
        obtain ⟨hjoined, hon⟩ := hend.trying hphase
        rw [getTokenFailed_eq hon, if_neg ((Bool.not_eq_true _).mpr hjoined)] at hfollows
        exact hfollows.isConnecting hphase rfl
      · intro hup
        rw [← Bool.not_eq_true]
        intro hgaveUp
        simp only [CollabClient.gaveUp, Bool.and_eq_true, Bool.not_eq_true', decide_eq_true_eq]
          at hgaveUp
        obtain ⟨⟨hon, hjoined⟩, hretries⟩ := hgaveUp
        rw [getTokenFailed_eq (by exact hon), if_pos (by exact hjoined),
          scheduleReconnect_of_ge (by exact hretries)] at hfollows
        exact not_follows_endSession (by exact hup) hfollows
    | _ => exact fun _ => rfl
  | fired timer => trivial
  | settled n value => trivial

/-! ### Runs -/

theorem inPhase_start (options : CollabClientOptions) (maxRetries : Nat) (adapter : Option Nat) :
    InPhase (start options maxRetries adapter) := Down.inPhase ⟨rfl, rfl⟩

/-- In every run, the phase follows the client in all of its states exactly when all of its moves
are in step. -/
theorem phase_follows_iff (doc : Document) (options : CollabClientOptions) (maxRetries : Nat)
    (adapter : Option Nat) (ms : List EngineMove) {e : CollabEngine}
    (hrun : Machine.exec (step doc) (start options maxRetries adapter) ms = some e) :
    Machine.Throughout (step doc) (Follows doc) (start options maxRetries adapter) ms ↔
      Machine.Guarded (step doc) InStep (start options maxRetries adapter) ms :=
  Machine.throughout_iff_guarded (fun _ h => h.follows) (fun _ _ _ h hG hstep => h.step hG hstep)
    (fun _ _ _ h hstep hfollows => h.inStep hstep hfollows) (inPhase_start _ _ _) hrun

instance (e : CollabEngine) (m : EngineMove) : Decidable (InStep e m) := by
  unfold InStep
  split <;> infer_instance

/-- It joins, and its socket closes. -/
theorem phase_follows_reconnecting : ∃ ms e,
    Machine.exec (step .blank) (start {} 5 none) ms = some e ∧ e.client.isConnecting = true ∧
    Machine.Throughout (step .blank) (Follows .blank) (start {} 5 none) ms := by
  have hrun : (Machine.execIf (step .blank) InStep (start {} 5 none)
      [.call (.connect (plainParams false)), .job (.opened 0),
        .job (.message 0 (joinedAs "a" "b" [])),
        .job (.closed 0)]).any (fun e => e.client.isConnecting) = true := by
    decide +kernel
  obtain ⟨e, he, hconnecting⟩ := (Option.any_eq_true _ _).mp hrun
  obtain ⟨hguarded, he⟩ := Machine.execIf_eq_some he
  exact ⟨_, e, he, hconnecting, (phase_follows_iff _ _ _ _ _ he).mpr hguarded⟩

/-- It leaves before it has joined, and is said to connect from then on. -/
theorem phase_stuck : ¬ ∀ doc options maxRetries adapter ms e,
    Machine.exec (step doc) (start options maxRetries adapter) ms = some e → Follows doc e := by
  intro h
  have hrun : (Machine.exec (step .blank) (start {} 5 none)
      [.call (.connect (plainParams false)), .call .disconnect]).any (fun e =>
        e.state.phase = .connecting ∧ e.client.isConnecting = false) = true := by
    decide +kernel
  obtain ⟨e, he, hstate⟩ := (Option.any_eq_true _ _).mp hrun
  obtain ⟨hphase, hidle⟩ := of_decide_eq_true hstate
  exact (h _ _ _ _ _ e he).isConnecting hphase hidle

end CollabEngine

end MassRelay.Ts

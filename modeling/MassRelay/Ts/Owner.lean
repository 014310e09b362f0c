import MassRelay.Ts.Network
import MassRelay.Ts.Phases

/-!
# MassRelay.Ts.Owner

Whether a client and its engine know that they own the room.

The client has its flag from the `connect` and loses it whenever its state is reset; a
`RoomJoined` does not set it. The engine compares its own id, which a `RoomJoined` finds empty,
with the owner's, and asks what the `connect` said. So an ownerless room is taken for one's own,
an owner that rejoins does not know it, and an engine that was reset under a connected client has
forgotten. `Announced` says what is left: the moves after which both still know.
-/

namespace MassRelay.Ts

/-- The owner id in an event that has one. -/
def ownerNamed : Event → Option String
  | .roomJoined rj => some rj.room.ownerClientId
  | .ownerChanged newOwnerClientId => some newOwnerClientId
  | _ => none

namespace CollabEngine

variable {doc : Document} {e e' e'' : CollabEngine}

/-- The owner id of the latest `RoomJoined` or `OwnerChanged` that was handled. -/
def latestOwner (e : CollabEngine) : String :=
  ((e.handled.filterMap fun event => ownerNamed event.event).getLast?).getD ""

def Owns (e : CollabEngine) : Prop := e.latestOwner ≠ "" ∧ e.latestOwner = e.client.clientId

/-- A connected client and its engine know whether the client is the owner. -/
def KnowsOwner (e : CollabEngine) : Prop :=
  e.client.isConnected = true →
    (e.client.isOwner = true ↔ e.Owns) ∧ (e.state.isOwner = true ↔ e.Owns)

/-- Whether a `RoomJoined` says that the one who joined is the owner. -/
def NamesOwner (rj : RoomJoined) : Prop :=
  rj.room.ownerClientId ≠ "" ∧ rj.room.ownerClientId = rj.clientId

/-- Whether the engine takes the room of a `RoomJoined` for its own. -/
def TakesRoom (e : CollabEngine) (rj : RoomJoined) : Prop :=
  e.state.clientId = rj.room.ownerClientId ∨ (e.connectParams.map (·.isOwner)).getD false = true

/-- After the move the client and the engine know whether the client is the owner, if they did
before. -/
def Announced (e : CollabEngine) : EngineMove → Prop
  | .job (.message _ event) =>
    match event.event with
    | .roomJoined rj =>
      if e.throws event then e.client.isConnected = true → (TakesRoom e rj ↔ e.Owns)
      else (e.client.isOwner = true ↔ NamesOwner rj) ∧ (TakesRoom e rj ↔ NamesOwner rj)
    | .ownerChanged newOwnerId =>
      e.client.isConnected = true → (newOwnerId = "" → e.client.clientId ≠ "") ∧
        (e.state.clientId = newOwnerId ↔ newOwnerId ≠ "" ∧ newOwnerId = e.client.clientId)
    | .credentialsChanged _ => e.client.isConnected = true → e.client.isOwner = false
    | _ => True
  | .job job =>
    e.client.isConnected = true → e.client.gaveUp job = true → e.client.isOwner = false
  | _ => True

/-- Nothing changed about the owner. -/
structure SameOwner (e e' : CollabEngine) : Prop where
  isConnected : e'.client.isConnected = e.client.isConnected
  isOwner : e'.client.isOwner = e.client.isOwner
  clientId : e'.client.clientId = e.client.clientId
  engine : e'.state.isOwner = e.state.isOwner
  latest : e'.latestOwner = e.latestOwner

namespace SameOwner

theorem refl (e : CollabEngine) : SameOwner e e := ⟨rfl, rfl, rfl, rfl, rfl⟩

theorem trans (h : SameOwner e e') (h' : SameOwner e' e'') : SameOwner e e'' :=
  ⟨h'.isConnected.trans h.isConnected, h'.isOwner.trans h.isOwner, h'.clientId.trans h.clientId,
    h'.engine.trans h.engine, h'.latest.trans h.latest⟩

theorem owns (h : SameOwner e e') : e'.Owns ↔ e.Owns := by
  rw [Owns, h.latest, h.clientId, Owns]

theorem sends (h : e.client.Sends e'.client) (hengine : e'.state.isOwner = e.state.isOwner)
    (hhandled : e'.handled = e.handled) : SameOwner e e' where
  isConnected := h.isConnected
  isOwner := h.field (·.isOwner) fun _ => rfl
  clientId := h.field (·.clientId) fun _ => rfl
  engine := hengine
  latest := by rw [latestOwner, hhandled, latestOwner]

theorem synced (h : Synced e e') : SameOwner e e' :=
  sends h.client (h.field (·.state.isOwner) fun _ _ _ _ _ => rfl)
    (h.field (·.handled) fun _ _ _ _ _ => rfl)

theorem modify {f : CollabClient → CollabClient}
    (hconnected : (f e.client).isConnected = e.client.isConnected)
    (howner : (f e.client).isOwner = e.client.isOwner)
    (hclient : (f e.client).clientId = e.client.clientId) :
    SameOwner e ((page doc).modify f e) := ⟨hconnected, howner, hclient, rfl, rfl⟩

/-- An event that names no owner. -/
theorem hear {event : CollabEvent} (hevent : ownerNamed event.event = none) :
    SameOwner e (e.hear event) := by
  refine ⟨rfl, rfl, rfl, rfl, ?_⟩
  simp [latestOwner, CollabEngine.hear, List.filterMap_append, hevent]

end SameOwner

theorem KnowsOwner.congr (h : KnowsOwner e) (hsame : SameOwner e e') : KnowsOwner e' := by
  intro hup
  rw [hsame.isOwner, hsame.engine, hsame.owns]
  exact h (hsame.isConnected.symm.trans hup)

theorem SameOwner.symm (h : SameOwner e e') : SameOwner e' e :=
  ⟨h.isConnected.symm, h.isOwner.symm, h.clientId.symm, h.engine.symm, h.latest.symm⟩

theorem SameOwner.knows_iff (h : SameOwner e e') : KnowsOwner e' ↔ KnowsOwner e :=
  ⟨fun hknows => hknows.congr h.symm, fun hknows => hknows.congr h⟩

theorem KnowsOwner.of_down (hdown : e.client.isConnected = false) : KnowsOwner e :=
  fun hup => absurd (hdown.symm.trans hup) Bool.false_ne_true

/-! ### Callbacks and methods -/

theorem onEvent_of_other {event : CollabEvent} (hevent : ∀ rj, event.event ≠ .roomJoined rj) :
    e.onEvent doc event = e.handleSyncEvent doc event := by
  unfold onEvent
  split
  · rename_i rj heq
    exact absurd heq (hevent rj)
  · rfl

/-- An event other than a `RoomJoined` is nothing but a sync event to the engine. -/
theorem sameOwner_onEvent {event : CollabEvent} (hevent : ∀ rj, event.event ≠ .roomJoined rj) :
    SameOwner e (e.call doc (.onEvent event)) := by
  change SameOwner e (e.onEvent doc event)
  rw [onEvent_of_other hevent]
  exact .synced (.handleSyncEvent event)

/-- Callbacks that have nothing to do with the owner. -/
def asideCallback : Callback → Bool
  | .onCredentialsChanged _ | .onDisconnect | .onSessionEnded _ | .onOwnerChanged _ | .onEvent _ =>
    false
  | _ => true

theorem sameOwner_call (callback : Callback) (haside : asideCallback callback = true) :
    SameOwner e (e.call doc callback) := by
  refine .sends (call_client callback) ?_ ?_
  · cases callback with
    | onEvent | onCredentialsChanged | onDisconnect | onSessionEnded | onOwnerChanged =>
      simp [asideCallback] at haside
    | onPeerJoined | onPeerLeft | onErrorEvent =>
      unfold call
      dsimp only
      split <;> rfl
    | _ => rfl
  · cases callback with
    | onEvent | onCredentialsChanged | onDisconnect | onSessionEnded | onOwnerChanged =>
      simp [asideCallback] at haside
    | onPeerJoined | onPeerLeft | onErrorEvent =>
      unfold call
      dsimp only
      split <;> rfl
    | _ => rfl

theorem sameOwner_addPeer (peer : PeerInfoJson) : SameOwner e ((page doc).addPeer peer e) := by
  have hset : SameOwner e ((page doc).modify (.setPeer peer) e) := by
    refine .modify ?_ ?_ ?_ <;>
    · unfold CollabClient.setPeer
      split <;> rfl
  rw [addPeer_eq]
  exact hset.trans (sameOwner_call _ rfl)

theorem sameOwner_scheduleReconnect (hretries : e.client.retryCount < e.client.maxRetries) :
    SameOwner e ((page doc).scheduleReconnect e) := by
  obtain ⟨delay, heq⟩ := scheduleReconnect_eq doc hretries
  rw [heq]
  exact ⟨rfl, rfl, rfl, rfl, rfl⟩

theorem sameOwner_modify_call {f : CollabClient → CollabClient} (callback : Callback)
    (hconnected : (f e.client).isConnected = e.client.isConnected)
    (howner : (f e.client).isOwner = e.client.isOwner)
    (hclient : (f e.client).clientId = e.client.clientId) (haside : asideCallback callback = true) :
    SameOwner e (((page doc).modify f e).call doc callback) :=
  (SameOwner.modify hconnected howner hclient).trans (sameOwner_call callback haside)

/-- What a `RoomJoined` does to the client. -/
theorem sameOwner_handleRoomJoined (rj : RoomJoined) :
    SameOwner ((page doc).modify (.setRoom rj) e) ((page doc).handleRoomJoined rj e) := by
  have hpeers : ∀ (peers : List (String × PeerInfo)) (e : CollabEngine),
      SameOwner e (peers.foldl (fun e entry => (page doc).addPeer (peerToJson entry.2) e) e) := by
    intro peers
    induction peers with
    | nil => exact fun e => .refl e
    | cons entry peers ih => exact fun e => (sameOwner_addPeer _).trans (ih _)
  have hconnect : SameOwner ((page doc).modify (.setRoom rj) e)
      (((page doc).modify (.setRoom rj) e).call doc (.onConnect rj.clientId)) :=
        sameOwner_call _ rfl
  have hclear : SameOwner ((page doc).modify (.setRoom rj) e)
      ((page doc).modify (fun c => { c with peers := ∅ })
        (((page doc).modify (.setRoom rj) e).call doc (.onConnect rj.clientId))) :=
    hconnect.trans (.modify rfl rfl rfl)
  exact (hclear.trans (sameOwner_addPeer _)).trans (hpeers _ _)

theorem scheduleReconnect_isConnected :
    ((page doc).scheduleReconnect e).client.isConnected = e.client.isConnected := by
  by_cases hretries : e.client.retryCount < e.client.maxRetries
  · exact (sameOwner_scheduleReconnect hretries).isConnected
  · rw [scheduleReconnect_of_ge (Nat.not_lt.mp hretries)]
    exact (endSession_isConnected doc e _).1

theorem dropAndReconnect_isConnected :
    ((page doc).dropAndReconnect e).client.isConnected = false := by
  have hreset : (e.client.resetState.close e.client.grpc).isConnected = false := by
    simp [CollabClient.resetState]
  unfold Page.dropAndReconnect
  dsimp only
  rw [scheduleReconnect_isConnected]
  split
  · exact (call_client _).isConnected.trans hreset
  · exact hreset

theorem handleSessionEnded_isConnected (reason : String) :
    ((page doc).handleSessionEnded reason e).client.isConnected = false := by
  unfold Page.handleSessionEnded
  split
  · exact dropAndReconnect_isConnected
  · exact (call_client _).isConnected.trans closeFromRelay_isConnected

theorem handleConnectionClosed_isConnected :
    ((page doc).handleConnectionClosed e).client.isConnected = false := by
  have hrest : ∀ t : CollabEngine, t.client.isConnected = false →
      (if !((page doc).client t).explicitDisconnect && ((page doc).client t).hasJoined &&
        ((page doc).client t).reconnectEnabled then (page doc).scheduleReconnect t
        else t).client.isConnected = false := by
    intro t ht
    split
    · exact scheduleReconnect_isConnected.trans ht
    · exact ht
  refine hrest _ ?_
  split
  · exact (call_client _).isConnected
  · rfl

/-- An error refuses one action of a connected client, and closes any other. -/
theorem handleError_owner (err : ErrorEvent) : SameOwner e ((page doc).handleError err e) ∨
    ((page doc).handleError err e).client.isConnected = false := by
  have hcall : SameOwner e (e.call doc (.onErrorEvent err.code err.message)) := sameOwner_call _ rfl
  unfold Page.handleError
  dsimp only
  split
  · exact Or.inl hcall
  · refine Or.inr ?_
    split
    · exact (call_client _).isConnected.trans closeFromRelay_isConnected
    · exact closeFromRelay_isConnected

theorem disconnect_owner (doc : Document) (e : CollabEngine) :
    SameOwner e (e.disconnect doc) ∨ (e.disconnect doc).client.isConnected = false := by
  unfold CollabEngine.disconnect Page.disconnect
  dsimp only
  split
  · refine Or.inl (.modify ?_ ?_ ?_) <;> rw [CollabClient.stop_eq]
    · exact CollabClient.clearRetry_isConnected
    · unfold CollabClient.clearRetry
      split <;> rfl
    · exact CollabClient.clearRetry_clientId
  · refine Or.inr ?_
    split
    · exact (call_client _).isConnected.trans CollabClient.hangUp_isConnected
    · exact CollabClient.hangUp_isConnected

/-! ### One move -/

theorem latestOwner_hear {event : CollabEvent} {owner : String}
    (hevent : ownerNamed event.event = some owner) : (e.hear event).latestOwner = owner := by
  simp [latestOwner, hear, List.filterMap_append, hevent]

/-- An engine that is reset under its client has forgotten whether that is the owner. -/
theorem knowsOwner_reset_iff (h : KnowsOwner e) (message : String) :
    KnowsOwner ((e.resetState doc).updateState fun s => { s with error := some message }) ↔
      (e.client.isConnected = true → e.client.isOwner = false) := by
  have hclient : ((e.resetState doc).updateState
      fun s => { s with error := some message }).client = e.client := resetState_client
  have howns : ((e.resetState doc).updateState
      fun s => { s with error := some message }).Owns ↔ e.Owns := by
    obtain ⟨_, _, _, heq⟩ := clearTimers_eq doc e
    rw [resetState, heq]
    rfl
  unfold KnowsOwner
  rw [hclient, howns]
  refine forall_congr' fun hup => ?_
  rw [← (h hup).1]
  simp [resetState, updateState]

theorem knowsOwner_endSession_iff (h : KnowsOwner e) (reason : String) :
    KnowsOwner ((page doc).endSession reason e) ↔
      (e.client.isConnected = true → e.client.isOwner = false) := by
  have hsame : SameOwner e ((page doc).modify
      (fun c => { c with explicitDisconnect := true, isConnecting := false }) e) :=
    .modify rfl rfl rfl
  exact knowsOwner_reset_iff (h.congr hsame) _

theorem sameOwner_triggerSceneInit (h : e.triggerSceneInit = some e') : SameOwner e e' := by
  obtain rfl | ⟨e₁, hsend, rfl⟩ := triggerSceneInit_cases h
  · exact ⟨rfl, rfl, rfl, rfl, rfl⟩
  · have hsame : SameOwner e e₁ := .synced (.send (by simp) hsend)
    exact ⟨hsame.isConnected, hsame.isOwner, hsame.clientId, hsame.engine, hsame.latest⟩

/-- What the engine makes of a `RoomJoined`, when it throws and when it does not. -/
theorem onEvent_roomJoined (doc : Document) (e : CollabEngine) {event : CollabEvent}
    {rj : RoomJoined} (hevent : event.event = .roomJoined rj) :
    if e.throws event then e.onEvent doc event = e.enterRoom rj
    else SameOwner (e.enterRoom rj) (e.onEvent doc event) := by
  have hsync : ∀ e₁ : CollabEngine, SameOwner e₁ (e₁.handleSyncEvent doc event) :=
    fun e₁ => .synced (.handleSyncEvent event)
  unfold throws onEvent
  simp only [hevent]
  cases hwants : (e.enterRoom rj).wantsScene with
  | false => simpa using hsync _
  | true =>
    cases htrigger : (e.enterRoom rj).triggerSceneInit with
    | none => simp
    | some e₁ => simpa using (sameOwner_triggerSceneInit htrigger).trans (hsync e₁)

theorem receive_roomJoined (eventId fromClientId : String) (rj : RoomJoined)
    (hthrows : e.throws { eventId, fromClientId, event := .roomJoined rj } = false) :
    e.receive doc { eventId, fromClientId, event := .roomJoined rj } =
      ((page doc).handleRoomJoined rj
        (e.onEvent doc { eventId, fromClientId, event := .roomJoined rj })).hear
          { eventId, fromClientId, event := .roomJoined rj } := by
  rw [receive, if_neg ((Bool.not_eq_true _).mpr hthrows)]
  rfl

theorem knowsOwner_receive_roomJoined (h : KnowsOwner e) (eventId fromClientId : String)
    (rj : RoomJoined) :
    KnowsOwner (e.receive doc { eventId, fromClientId, event := .roomJoined rj }) ↔
      if e.throws { eventId, fromClientId, event := .roomJoined rj } then
        e.client.isConnected = true → (TakesRoom e rj ↔ e.Owns)
      else (e.client.isOwner = true ↔ NamesOwner rj) ∧ (TakesRoom e rj ↔ NamesOwner rj) := by
  have htakes : (e.enterRoom rj).state.isOwner = true ↔ TakesRoom e rj := by
    simp [enterRoom, updateState, TakesRoom]
  have honEvent := onEvent_roomJoined doc e
    (show CollabEvent.event { eventId, fromClientId, event := .roomJoined rj } = .roomJoined rj
      from rfl)
  cases hthrows : e.throws { eventId, fromClientId, event := .roomJoined rj } with
  -- `onEvent` throws, so the client never gets to the event
  | true =>
    rw [if_pos hthrows] at honEvent
    have heq : e.receive doc { eventId, fromClientId, event := .roomJoined rj } = e.enterRoom rj :=
      (if_pos hthrows).trans honEvent
    rw [heq, if_pos rfl, ← htakes]
    exact forall_congr' fun hup => and_iff_right (h hup).1
  | false =>
    rw [if_neg ((Bool.not_eq_true _).mpr hthrows)] at honEvent
    rw [receive_roomJoined _ _ _ hthrows, if_neg Bool.false_ne_true]
    set e₁ := e.onEvent doc { eventId, fromClientId, event := .roomJoined rj }
    have hjoined : SameOwner ((page doc).modify (.setRoom rj) e₁)
      ((page doc).handleRoomJoined rj e₁) := sameOwner_handleRoomJoined rj
    have hup : ((page doc).handleRoomJoined rj e₁).client.isConnected = true := hjoined.isConnected
    have howner : ((page doc).handleRoomJoined rj e₁).client.isOwner = e.client.isOwner :=
      hjoined.isOwner.trans honEvent.isOwner
    have hengine : ((page doc).handleRoomJoined rj e₁).state.isOwner =
      (e.enterRoom rj).state.isOwner := hjoined.engine.trans honEvent.engine
    have hclient : ((page doc).handleRoomJoined rj e₁).client.clientId = rj.clientId :=
      hjoined.clientId
    set t := (page doc).handleRoomJoined rj e₁
    have howns : (t.hear { eventId, fromClientId, event := .roomJoined rj }).Owns ↔
        NamesOwner rj := by
      rw [Owns, latestOwner_hear rfl]
      change _ ∧ _ = t.client.clientId ↔ _
      rw [hclient, NamesOwner]
    unfold KnowsOwner
    rw [howns]
    change (t.client.isConnected = true → (t.client.isOwner = true ↔ _) ∧
      (t.state.isOwner = true ↔ _)) ↔ _
    rw [hup, howner, hengine, htakes]
    exact forall_prop_of_true rfl

theorem knowsOwner_receive_ownerChanged (eventId fromClientId newOwnerId : String) :
    KnowsOwner (e.receive doc { eventId, fromClientId, event := .ownerChanged newOwnerId }) ↔
      (e.client.isConnected = true → (newOwnerId = "" → e.client.clientId ≠ "") ∧
        (e.state.clientId = newOwnerId ↔ newOwnerId ≠ "" ∧ newOwnerId = e.client.clientId)) := by
  have hsynced : Synced e (e.handleSyncEvent doc
      { eventId, fromClientId, event := .ownerChanged newOwnerId }) := .handleSyncEvent _
  have hsame := SameOwner.synced hsynced
  have hid : (e.handleSyncEvent doc
      { eventId, fromClientId, event := .ownerChanged newOwnerId }).state.clientId =
      e.state.clientId := hsynced.field (·.state.clientId) fun _ _ _ _ _ => rfl
  set e₁ := e.handleSyncEvent doc { eventId, fromClientId, event := .ownerChanged newOwnerId }
  set t := e.receive doc { eventId, fromClientId, event := .ownerChanged newOwnerId }
  have hclient : t.client = { e₁.client with
    isOwner := decide (newOwnerId = e₁.client.clientId)
    peers := CollabClient.setOwner newOwnerId e₁.client.peers } := rfl
  have hengine : t.state.isOwner = decide (e₁.state.clientId = newOwnerId) := rfl
  have howns : t.Owns ↔ newOwnerId ≠ "" ∧ newOwnerId = e.client.clientId := by
    have hlatest : t.latestOwner = newOwnerId := latestOwner_hear rfl
    rw [Owns, hlatest, hclient, hsame.clientId]
  unfold KnowsOwner
  rw [howns, hengine, hclient, hid]
  dsimp only
  rw [hsame.clientId, hsame.isConnected, decide_eq_true_iff, decide_eq_true_iff]
  refine forall_congr' fun _ => and_congr_left fun _ => ?_
  constructor
  · intro h hempty hid
    exact (h.mp (hempty.trans hid.symm)).1 hempty
  · intro h
    exact ⟨fun heq => ⟨fun hempty => h hempty (heq.symm.trans hempty), heq⟩, And.right⟩

theorem knowsOwner_receive_iff (h : KnowsOwner e) (socket : Nat) (event : CollabEvent) :
    KnowsOwner (e.receive doc event) ↔ Announced e (.job (.message socket event)) := by
  obtain ⟨eventId, fromClientId, kind⟩ := event
  have hsame : ∀ kind, (∀ rj, kind ≠ .roomJoined rj) →
      SameOwner e (e.call doc (.onEvent { eventId, fromClientId, event := kind })) :=
    fun kind hkind => sameOwner_onEvent hkind
  cases kind with
  | roomJoined rj => exact knowsOwner_receive_roomJoined h eventId fromClientId rj
  | ownerChanged newOwnerId => exact knowsOwner_receive_ownerChanged eventId fromClientId newOwnerId
  | credentialsChanged cc =>
    have hevent := hsame (.credentialsChanged cc) (by simp)
    have hreset : KnowsOwner ((e.call doc (.onEvent
        { eventId, fromClientId, event := .credentialsChanged cc })).call doc
          (.onCredentialsChanged cc.reason)) ↔ _ := knowsOwner_reset_iff (h.congr hevent) _
    rw [hevent.isConnected, hevent.isOwner] at hreset
    exact (SameOwner.hear rfl).knows_iff.trans hreset
  -- a connected client goes on, and any other is down
  | error err =>
    have hevent := h.congr (hsame (.error err) (by simp))
    refine iff_of_true ((SameOwner.hear rfl).knows_iff.mpr ?_) trivial
    obtain herror | hdown := handleError_owner err
    · exact hevent.congr herror
    · exact .of_down hdown
  | sessionEnded reason =>
    exact iff_of_true (.of_down (handleSessionEnded_isConnected reason)) trivial
  | peerJoined peer =>
    have hevent := h.congr (hsame (.peerJoined peer) (by simp))
    exact iff_of_true (hevent.congr ((sameOwner_addPeer _).trans (.hear rfl))) trivial
  | peerLeft left =>
    have hevent := h.congr (hsame (.peerLeft left) (by simp))
    exact iff_of_true (hevent.congr
      ((sameOwner_modify_call (.onPeerLeft left.clientId) rfl rfl rfl rfl).trans (.hear rfl)))
        trivial
  | titleChanged tc =>
    have hevent := h.congr (hsame (.titleChanged tc) (by simp))
    exact iff_of_true (hevent.congr
      ((sameOwner_modify_call (.onTitleChanged tc.title) rfl rfl rfl rfl).trans (.hear rfl)))
        trivial
  | appMessage msg =>
    have hevent := h.congr (hsame (.appMessage msg) (by simp))
    exact iff_of_true (hevent.congr (.hear rfl)) trivial
  | presence presence =>
    exact iff_of_true ((h.congr (hsame (.presence presence) (by simp))).congr (.hear rfl)) trivial
  | sceneUpdate su =>
    exact iff_of_true ((h.congr (hsame (.sceneUpdate su) (by simp))).congr (.hear rfl)) trivial
  | cursorUpdate cu =>
    exact iff_of_true ((h.congr (hsame (.cursorUpdate cu) (by simp))).congr (.hear rfl)) trivial
  | textUpdate tu =>
    exact iff_of_true ((h.congr (hsame (.textUpdate tu) (by simp))).congr (.hear rfl)) trivial
  | sceneInitResponse r =>
    exact iff_of_true ((h.congr (hsame (.sceneInitResponse r) (by simp))).congr (.hear rfl)) trivial
  | sceneInitRequest =>
    exact iff_of_true ((h.congr (hsame .sceneInitRequest (by simp))).congr (.hear rfl)) trivial

theorem sameOwner_endTask (task : Task) : SameOwner e ((page doc).modify (.endTask task) e) :=
  .modify rfl rfl rfl

/-- A check or a token that does not make the client give up. -/
theorem knowsOwner_scheduleReconnect_iff (h : KnowsOwner e) :
    KnowsOwner ((page doc).scheduleReconnect e) ↔
      (e.client.isConnected = true → e.client.retryCount ≥ e.client.maxRetries →
        e.client.isOwner = false) := by
  by_cases hretries : e.client.retryCount < e.client.maxRetries
  · refine iff_of_true (h.congr (sameOwner_scheduleReconnect hretries)) fun _ hge => ?_
    exact absurd hge (Nat.not_le.mpr hretries)
  · have hge := Nat.not_lt.mp hretries
    rw [scheduleReconnect_of_ge hge, knowsOwner_endSession_iff h]
    exact forall_congr' fun _ => ⟨fun hnot _ => hnot, fun hnot => hnot hge⟩

theorem sameOwner_openWithToken : SameOwner e ((page doc).modify .openWithToken e) := by
  refine .modify CollabClient.openWithToken_isConnected ?_ CollabClient.openWithToken_clientId
  unfold CollabClient.openWithToken
  split <;> rfl

theorem knowsOwner_roomChecked_iff (h : KnowsOwner e) (fetch : Nat) (status : Option Nat) :
    KnowsOwner ((page doc).roomChecked status e) ↔
      (e.client.isConnected = true → e.client.gaveUp (.checked fetch status) = true →
        e.client.isOwner = false) := by
  unfold Page.roomChecked
  split
  · rename_i hexplicit
    have hexplicit : e.client.explicitDisconnect = true := hexplicit
    exact iff_of_true h (by simp [CollabClient.gaveUp, hexplicit])
  · rename_i hexplicit
    have hon : e.client.explicitDisconnect = false := (Bool.not_eq_true _).mp hexplicit
    split
    · rename_i hgone
      rw [knowsOwner_endSession_iff h]
      simp [CollabClient.gaveUp, hon, hgone]
    · split
      · rename_i hfound
        exact iff_of_true (h.congr sameOwner_openWithToken)
          (by simp [CollabClient.gaveUp, hfound])
      · rename_i hgone hfound
        rw [knowsOwner_scheduleReconnect_iff h]
        simp [CollabClient.gaveUp, hon, hgone, hfound]

theorem knowsOwner_getTokenFailed_iff (h : KnowsOwner e) (request : Nat) (message : String) :
    KnowsOwner ((page doc).getTokenFailed message e) ↔
      (e.client.isConnected = true → e.client.gaveUp (.tokenFailed request message) = true →
        e.client.isOwner = false) := by
  have herror : SameOwner e (e.call doc (.onError message)) := sameOwner_call _ rfl
  cases hon : e.client.explicitDisconnect with
  | true =>
    have heq : (page doc).getTokenFailed message e = e.call doc (.onError message) := if_pos hon
    rw [heq]
    exact iff_of_true (h.congr herror) (by simp [CollabClient.gaveUp, hon])
  | false =>
    rw [getTokenFailed_eq hon]
    cases hjoined : e.client.hasJoined with
    | true =>
      rw [if_pos rfl, knowsOwner_scheduleReconnect_iff (h.congr herror)]
      simp [CollabClient.gaveUp, hon, hjoined, call, updateState]
    | false =>
      rw [if_neg Bool.false_ne_true]
      exact iff_of_true (h.congr (herror.trans (.modify rfl rfl rfl)))
        (by simp [CollabClient.gaveUp, hjoined])

/-- A job other than an event. -/
theorem knowsOwner_run_iff {job : Job} (h : KnowsOwner e) (hrun : e.run doc job = some e') :
    KnowsOwner e' ↔ Announced e (.job job) := by
  have hend : ∀ task, KnowsOwner ((page doc).modify (.endTask task) e) :=
    fun task => h.congr (sameOwner_endTask task)
  cases job with
  | message socket event =>
    obtain ⟨-, heq⟩ := Option.ite_none_right_eq_some.mp hrun
    exact Option.some.inj heq ▸ knowsOwner_receive_iff h socket event
  | opened socket =>
    obtain ⟨-, rfl⟩ := Page.settle_eq_some.mp hrun
    refine iff_of_true ((hend _).congr (.modify ?_ ?_ ?_)) fun _ hgaveUp => ?_
    · exact CollabClient.sendOn_isConnected
    · unfold CollabClient.sendOn
      split <;> rfl
    · exact CollabClient.sendOn_clientId
    · simp [CollabClient.gaveUp] at hgaveUp
  | refused socket =>
    obtain ⟨-, rfl⟩ := Page.settle_eq_some.mp hrun
    exact iff_of_true (hend _) fun _ hgaveUp => by simp [CollabClient.gaveUp] at hgaveUp
  | closed socket =>
    obtain ⟨-, heq⟩ := Option.ite_none_right_eq_some.mp hrun
    obtain rfl := Option.some.inj heq
    refine iff_of_true ?_ fun _ hgaveUp => by simp [CollabClient.gaveUp] at hgaveUp
    split
    · exact .of_down handleConnectionClosed_isConnected
    · exact h.congr (.modify rfl rfl rfl)
  | failed socket message =>
    obtain ⟨-, heq⟩ := Option.ite_none_right_eq_some.mp hrun
    obtain rfl := Option.some.inj heq
    have herror : SameOwner e (e.call doc (.onError message)) := sameOwner_call _ rfl
    exact iff_of_true (h.congr herror) fun _ hgaveUp => by simp [CollabClient.gaveUp] at hgaveUp
  | fired timer =>
    obtain ⟨-, rfl⟩ := Page.settle_eq_some.mp hrun
    exact iff_of_true ((hend _).congr (.modify rfl rfl rfl))
      fun _ hgaveUp => by simp [CollabClient.gaveUp] at hgaveUp
  | checked fetch status =>
    obtain ⟨-, rfl⟩ := Page.settle_eq_some.mp hrun
    exact knowsOwner_roomChecked_iff (hend _) fetch status
  | gotToken request token =>
    obtain ⟨-, rfl⟩ := Page.settle_eq_some.mp hrun
    refine iff_of_true ?_ fun _ hgaveUp => by simp [CollabClient.gaveUp] at hgaveUp
    unfold Page.gotToken
    split
    · exact hend _
    · exact (hend _).congr (.modify rfl rfl rfl)
  | tokenFailed request message =>
    obtain ⟨-, rfl⟩ := Page.settle_eq_some.mp hrun
    exact knowsOwner_getTokenFailed_iff (hend _) request message

theorem sameOwner_clearTimers : SameOwner e (e.clearTimers doc) := by
  obtain ⟨_, _, _, heq⟩ := clearTimers_eq doc e
  rw [heq]
  exact ⟨rfl, rfl, rfl, rfl, rfl⟩

theorem knowsOwner_connect (h : KnowsOwner e) (params : ConnectArgs) :
    KnowsOwner (e.perform doc (.connect params)) := by
  have hwire : SameOwner e (e.wire params) := ⟨rfl, rfl, rfl, rfl, rfl⟩
  by_cases hup : e.client.isConnected = true
  · have heq : e.perform doc (.connect params) = e.wire params := by
      change (e.connect doc params).getD (e.wire params) = _
      rw [connect_eq_none.mpr hup, Option.getD_none]
    rw [heq]
    exact h.congr hwire
  · have heq : e.connect doc params =
        some ((page doc).modify (fun c => (c.connect params).openWithToken) (e.wire params)) :=
      if_neg hup
    have hperform : e.perform doc (.connect params) =
        (page doc).modify (fun c => (c.connect params).openWithToken) (e.wire params) := by
      change (e.connect doc params).getD (e.wire params) = _
      rw [heq, Option.getD_some]
    rw [hperform]
    exact .of_down (CollabClient.openWithToken_isConnected.trans ((Bool.not_eq_true _).mp hup))

theorem knowsOwner_disconnect (h : KnowsOwner e) : KnowsOwner (e.disconnect doc) := by
  obtain hsame | hdown := disconnect_owner doc e
  · exact h.congr hsame
  · exact .of_down hdown

theorem knowsOwner_dispose (h : KnowsOwner e) : KnowsOwner (e.dispose doc) := by
  have hmark : KnowsOwner { e with disposed := true } := h.congr ⟨rfl, rfl, rfl, rfl, rfl⟩
  unfold dispose
  dsimp only
  split
  · exact (knowsOwner_disconnect hmark).congr sameOwner_clearTimers
  · exact hmark.congr sameOwner_clearTimers

theorem sameOwner_setAdapter (adapter : Option Nat) : SameOwner e (e.setAdapter adapter) := by
  have hset : SameOwner e { e with adapter } := ⟨rfl, rfl, rfl, rfl, rfl⟩
  unfold setAdapter
  dsimp only
  split
  · cases htrigger : triggerSceneInit { e with adapter } with
    | none => exact hset
    | some e₁ => exact hset.trans (sameOwner_triggerSceneInit htrigger)
  · exact hset

theorem sameOwner_notifyLocalChange : SameOwner e (e.notifyLocalChange doc) := by
  unfold notifyLocalChange
  split <;> exact ⟨rfl, rfl, rfl, rfl, rfl⟩

theorem sameOwner_notifyCursorMove : SameOwner e (e.notifyCursorMove doc) := by
  unfold notifyCursorMove
  split <;> exact ⟨rfl, rfl, rfl, rfl, rfl⟩

theorem sameOwner_sendCursor : SameOwner e (e.sendCursor doc) := by
  have hmark : SameOwner e { e with cursorPending := false } := ⟨rfl, rfl, rfl, rfl, rfl⟩
  refine hmark.trans ?_
  unfold sendCursor
  dsimp only
  split
  · exact .refl _
  · split
    · exact .synced (.record _ _)
    · exact .synced ((Synced.record _ _).trans (.trySend _ (by simp)))

theorem sameOwner_fire {timer : Nat} (hfire : e.fire doc timer = some e') : SameOwner e e' := by
  have hclear : SameOwner e (e.expire timer) := ⟨rfl, rfl, rfl, rfl, rfl⟩
  obtain ⟨callback, -, rfl⟩ := Option.map_eq_some_iff.mp hfire
  cases callback with
  | flushOutgoing => exact hclear.trans (.synced .flushOutgoing)
  | sendCursor => exact hclear.trans sameOwner_sendCursor

/-- After a move both know exactly if it is announced. -/
theorem knowsOwner_step_iff {m : EngineMove} (h : KnowsOwner e) (hstep : e.step doc m = some e') :
    KnowsOwner e' ↔ Announced e m := by
  cases m with
  | call call =>
    obtain rfl := Option.some.inj hstep
    refine iff_of_true ?_ trivial
    cases call with
    | connect params => exact knowsOwner_connect h params
    | disconnect => exact knowsOwner_disconnect h
    | dispose => exact knowsOwner_dispose h
    | setAdapter adapter => exact h.congr (sameOwner_setAdapter adapter)
    | setEncryptionKey key => exact h.congr ⟨rfl, rfl, rfl, rfl, rfl⟩
    | notifyLocalChange => exact h.congr sameOwner_notifyLocalChange
    | notifyCursorMove => exact h.congr sameOwner_notifyCursorMove
    | notifyCredentialsChanged reason => exact h.congr (.synced (.trySend _ (by simp)))
    | notifyTitleChanged title => exact h.congr (.synced (.trySend _ (by simp)))
  | job job => exact knowsOwner_run_iff h hstep
  | fired timer => exact iff_of_true (h.congr (sameOwner_fire hstep)) trivial
  | settled n value => exact iff_of_true (h.congr (.synced (.settle hstep))) trivial

/-! ### Runs -/

instance (rj : RoomJoined) : Decidable (NamesOwner rj) := by
  unfold NamesOwner
  infer_instance

instance (e : CollabEngine) (rj : RoomJoined) : Decidable (TakesRoom e rj) := by
  unfold TakesRoom
  infer_instance

instance (e : CollabEngine) : Decidable e.Owns := by
  unfold Owns
  infer_instance

instance (e : CollabEngine) (m : EngineMove) : Decidable (Announced e m) := by
  induction m using EngineMove.casesOn with
  | call call => exact .isTrue trivial
  | fired timer => exact .isTrue trivial
  | settled n value => exact .isTrue trivial
  | job job =>
    induction job using Job.casesOn with
    | message socket event =>
      obtain ⟨eventId, fromClientId, event⟩ := event
      induction event using Event.casesOn with
      | roomJoined rj =>
        show Decidable (if e.throws _ then e.client.isConnected = true → (TakesRoom e rj ↔ e.Owns)
          else (e.client.isOwner = true ↔ NamesOwner rj) ∧ (TakesRoom e rj ↔ NamesOwner rj))
        infer_instance
      | ownerChanged newOwnerId => exact inferInstanceAs (Decidable (_ → _ ∧ _))
      | credentialsChanged reason => exact inferInstanceAs (Decidable (_ → _ = false))
      | _ => exact .isTrue trivial
    | _ =>
      show Decidable (e.client.isConnected = true → e.client.gaveUp _ = true →
        e.client.isOwner = false)
      infer_instance

end CollabEngine

namespace Network

variable {ι : Type} [DecidableEq ι]

/-- In every run of the relay and its engines, each client and its engine know throughout whether
the client is the owner exactly when all moves of the engines are announced. -/
theorem knowsOwner_iff (w : Surroundings ι) (maxPeers : Int)
    (engine : ι → CollabClientOptions × Nat × Option Nat) (ms : List (NetworkMove ι))
    {t : Network ι}
    (hrun : Machine.exec (step w) (start maxPeers engine) ms = some t) :
    Machine.Throughout (step w) (fun s => ∀ x, (s.engine x).KnowsOwner) (start maxPeers engine) ms ↔
      Machine.Guarded (step w) (EngineGuard w CollabEngine.Announced) (start maxPeers engine) ms :=
  throughout_iff (fun _ h => h)
    (fun _ _ _ _ h hG hstep => (CollabEngine.knowsOwner_step_iff h hstep).mpr hG)
    (fun _ _ _ _ h hstep hknows => (CollabEngine.knowsOwner_step_iff h hstep).mp hknows)
    (fun _ => .of_down rfl) hrun

/-- An owner opens its room. -/
theorem knowsOwner_opening : ∃ ms t,
    Machine.exec (step (.plain 1)) (start 10 fun _ => ({}, 5, some 0)) ms = some t ∧
    (t.engine 0).client.isOwner = true ∧
    Machine.Throughout (step (.plain 1)) (fun s => ∀ x, (s.engine x).KnowsOwner)
      (start 10 fun _ => ({}, 5, some 0)) ms := by
  have hrun : (Machine.execIf (step (.plain 1)) (EngineGuard (.plain 1) CollabEngine.Announced)
      (start 10 fun _ => ({}, 5, some 0)) (join 0 (plainParams true) 20)).any (fun t =>
        (t.engine 0).client.isOwner) = true := by
    decide +kernel
  obtain ⟨t, ht, howner⟩ := (Option.any_eq_true _ _).mp hrun
  obtain ⟨hguarded, ht⟩ := Machine.execIf_eq_some ht
  exact ⟨_, t, ht, howner, (knowsOwner_iff _ _ _ _ ht).mpr hguarded⟩

/-- A viewer opens a room, which has no owner, and its engine takes it for its own. -/
theorem owner_unknown : ¬ ∀ (ι : Type) [DecidableEq ι] (w : Surroundings ι) (maxPeers : Int)
    (engine : ι → CollabClientOptions × Nat × Option Nat) (ms : List (NetworkMove ι))
    (t : Network ι), Machine.exec (step w) (start maxPeers engine) ms = some t →
      ∀ x, (t.engine x).KnowsOwner := by
  intro h
  have hrun : (Machine.exec (step (.plain 1)) (start 10 fun _ => ({}, 5, some 0))
      (join 0 (plainParams false) 19)).any (fun t => (t.engine 0).client.isConnected = true ∧
        (t.engine 0).state.isOwner = true ∧ ¬ (t.engine 0).Owns) = true := by
    decide +kernel
  obtain ⟨t, ht, hstate⟩ := (Option.any_eq_true _ _).mp hrun
  obtain ⟨hup, howner, howns⟩ := of_decide_eq_true hstate
  exact howns ((h _ _ _ _ _ t ht 0 hup).2.mp howner)

end Network

end MassRelay.Ts

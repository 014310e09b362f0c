import MassRelay.Ts.Snapshots

/-!
# MassRelay.Ts.LateJoiners

Who joins a room with others in it asks them for the scene.

`_triggerSceneInit` tells from the peers of the engine whether there are others, and `onEvent`
calls it for a `RoomJoined` before the client calls back with the peers that this names. So an
engine that has its adapter by then marks itself initialized and asks nobody, and one that gets it
later asks. A `Visit` is what an onlooker knows of the last join. The engine asks once for each
exactly when it is ready to at the moment that it has joined and has an adapter (`Prepared`).
-/

namespace MassRelay.Ts

/-- A join of a room with others in it. -/
structure Visit where
  /-- What the engine had done about the scene before. -/
  marks : List Mark
  /-- Whether it has had an adapter since. -/
  provided : Bool

namespace CollabEngine

variable {doc : Document} {e e' e'' : CollabEngine} {m : EngineMove} {visit : Option Visit}

/-- What an onlooker knows after a move. -/
def note (e : CollabEngine) (m : EngineMove) (visit : Option Visit) : Option Visit :=
  match m with
  | .job (.message _ { event := .roomJoined rj, .. }) =>
    if rj.room.peers = [] then none else some { marks := e.marks, provided := e.adapter.isSome }
  | .call (.setAdapter (some _)) =>
    if e.client.isConnected then visit.map fun visit => { visit with provided := true } else visit
  | _ => visit

/-- Since it joined, an engine with an adapter has asked for the scene once, and is initialized
only if it has applied one. -/
def AskedOnce (s : CollabEngine × Option Visit) : Prop :=
  ∀ visit ∈ s.2, visit.provided = true → ∃ marks, s.1.marks = visit.marks ++ marks ∧
    marks.count .asked = 1 ∧ (s.1.state.isInitialized = true → .applied ∈ marks)

/-- It knows of others, has neither a scene nor asked for one, and its client can send. -/
structure Ready (e : CollabEngine) : Prop where
  initialized : e.state.isInitialized = false
  requested : e.initRequestSent = false
  peers : 1 < e.state.peers.keys.length
  canSend : e.CanSend

/-- Where the move lets the engine have both others in its room and an adapter, it is ready. -/
def Prepared (s : CollabEngine × Option Visit) : EngineMove → Prop
  | .job (.message _ { event := .roomJoined rj, .. }) =>
    rj.room.peers ≠ [] → s.1.adapter.isSome = true → Ready s.1
  | .call (.setAdapter (some _)) =>
    s.1.client.isConnected = true → (∃ visit ∈ s.2, visit.provided = false) →
      s.1.state.phase = .connected ∧ Ready s.1
  | _ => True

/-! ### Moves that ask for nothing -/

/-- A new adapter makes it ask for nothing. -/
def Waits (e : CollabEngine) : Prop := e.initRequestSent = true ∨ e.state.phase ≠ .connected

/-- The engine has asked for nothing, and is initialized only by what it applied. -/
structure Unasked (e e' : CollabEngine) : Prop where
  marks : ∃ marks, e'.marks = e.marks ++ marks ∧ .asked ∉ marks ∧
    (e'.state.isInitialized = true → e.state.isInitialized = true ∨ .applied ∈ marks)
  waits : e.Waits → e'.Waits

namespace Unasked

theorem of_marks (hmarks : e'.marks = e.marks)
    (hinit : e'.state.isInitialized = true → e.state.isInitialized = true)
    (hwaits : e.Waits → e'.Waits) : Unasked e e' :=
  ⟨⟨[], by rw [hmarks, List.append_nil], by simp, fun h => Or.inl (hinit h)⟩, hwaits⟩

theorem of_scene (hscene : e'.scene = e.scene) (hwaits : e.Waits → e'.Waits) : Unasked e e' := by
  have hinit : e'.state.isInitialized = e.state.isInitialized := congrArg Prod.snd hscene
  exact of_marks (congrArg Prod.fst hscene) (fun h => hinit ▸ h) hwaits

theorem of_applied (hscene : e'.scene = (e.marks ++ [.applied], true))
    (hwaits : e.Waits → e'.Waits) : Unasked e e' :=
  ⟨⟨[.applied], congrArg Prod.fst hscene, by simp, fun _ => Or.inr (by simp)⟩, hwaits⟩

theorem refl (e : CollabEngine) : Unasked e e := of_scene rfl id

theorem trans (h : Unasked e e') (h' : Unasked e' e'') : Unasked e e'' := by
  obtain ⟨marks, heq, hasked, hinit⟩ := h.marks
  obtain ⟨marks', heq', hasked', hinit'⟩ := h'.marks
  refine ⟨⟨marks ++ marks', by rw [heq', heq, List.append_assoc], ?_, fun hup => ?_⟩,
    fun hwaits => h'.waits (h.waits hwaits)⟩
  · simp [hasked, hasked']
  · obtain hbefore | happlied := hinit' hup
    · exact (hinit hbefore).imp_right (List.mem_append_left _)
    · exact Or.inr (List.mem_append_right _ happlied)

end Unasked

theorem Waits.synced (hwaits : e.Waits) (h : Synced e e') : e'.Waits := by
  have hrequested : e'.initRequestSent = e.initRequestSent :=
    h.field (·.initRequestSent) fun _ _ _ _ _ => rfl
  unfold Waits
  rwa [hrequested, h.phase]

theorem unasked_resetState : Unasked e (e.resetState doc) := by
  have hclear : (e.clearTimers doc).marks = e.marks := quiet_clearTimers.marks
  exact .of_marks hclear (fun h => absurd h Bool.false_ne_true) fun _ => Or.inr (by simp)

/-- Every callback but `onEvent` and `onConnect`. -/
theorem unasked_call (callback : Callback) (hevent : callback.isEvent = false)
    (hconnect : ∀ id, callback ≠ .onConnect id) : Unasked e (e.call doc callback) := by
  cases callback with
  | onEvent event => simp [Callback.isEvent] at hevent
  | onConnect id => exact absurd rfl (hconnect id)
  | onPeerJoined peer =>
    unfold call
    dsimp only
    split
    · exact .refl e
    · exact .of_scene rfl id
  | onPeerLeft clientId =>
    unfold call
    dsimp only
    split
    · exact .of_scene rfl id
    · exact .of_scene (scene_record_of_none rfl) id
  | onErrorEvent code message =>
    unfold call
    dsimp only
    split
    · exact .refl e
    · exact .of_scene rfl fun _ => Or.inr (by simp [updateState])
  | onDisconnect => exact unasked_resetState
  | onCredentialsChanged | onSessionEnded => exact unasked_resetState.trans (.of_scene rfl id)
  | _ => exact .of_scene rfl id

theorem within_unasked (doc : Document) : (page doc).Within Unasked where
  refl := .refl
  trans h h' := h.trans h'
  modify _ _ := .of_scene rfl id
  call callback t hstatus := by
    refine unasked_call callback ?_ ?_
    · cases callback with
      | onEvent => simp [Callback.isStatus] at hstatus
      | _ => rfl
    · rintro id rfl
      simp [Callback.isStatus] at hstatus

/-- An event, unless it is a `RoomJoined`. -/
theorem unasked_onEvent (event : CollabEvent) (hjoined : ∀ rj, event.event ≠ .roomJoined rj) :
    Unasked e (e.onEvent doc event) := by
  have hsync : e.onEvent doc event = e.handleSyncEvent doc event := by
    unfold onEvent
    split
    · rename_i rj heq
      exact absurd heq (hjoined rj)
    · rfl
  have hwaits : e.Waits → (e.handleSyncEvent doc event).Waits :=
    fun h => h.synced (.handleSyncEvent event)
  rw [hsync]
  obtain ⟨eventId, fromClientId, kind⟩ := event
  cases kind with
  | sceneInitResponse response =>
    obtain ⟨-, happlied⟩ | ⟨-, hsame⟩ :=
      scene_sceneInitResponse doc e 0 eventId fromClientId response rfl
    · exact .of_applied happlied hwaits
    · exact .of_scene hsame hwaits
  | _ => exact .of_scene (scene_handleSyncEvent _ (by simp)) hwaits

theorem unasked_receive (event : CollabEvent) (hjoined : ∀ rj, event.event ≠ .roomJoined rj) :
    Unasked e (e.receive doc event) := by
  have hevent : Unasked e (e.call doc (.onEvent event)) := unasked_onEvent event hjoined
  unfold receive
  split
  · exact hevent
  · have hrest := (within_unasked doc).handleEvent event (t := e) fun callback _ hfollows => ?_
    · exact (hevent.trans hrest).trans (.of_scene rfl id)
    refine unasked_call callback (Callback.isEvent_of_follows hfollows) ?_
    rintro id rfl
    cases hkind : event.event with
    | roomJoined rj => exact hjoined rj hkind
    | _ => simp [Callback.follows, hkind] at hfollows

theorem unasked_run {job : Job} (hmessage : ∀ socket event, job ≠ .message socket event)
    (hrun : e.run doc job = some e') : Unasked e e' := by
  by_cases hopened : ∃ socket, job = .opened socket
  · obtain ⟨socket, rfl⟩ := hopened
    obtain ⟨-, rfl⟩ := Page.settle_eq_some.mp hrun
    exact .of_scene rfl id
  · refine (within_unasked doc).run (fun socket h => hopened ⟨socket, h⟩) hmessage (s := e) ?_
    cases job with
    | message socket event => exact absurd rfl (hmessage socket event)
    | _ => exact hrun

theorem unasked_trySend {action : Action} (hmark : (Effect.send action).mark = none)
    (hjoin : ∀ join, action ≠ .join join) : Unasked e (e.trySend none action) :=
  .of_scene (scene_trySend hmark) fun h => h.synced (.trySend none hjoin)

theorem unasked_perform {call : EngineCall} (hset : ∀ adapter, call ≠ .setAdapter (some adapter)) :
    Unasked e (e.perform doc call) := by
  have hclear : ∀ e : CollabEngine, Unasked e (e.clearTimers doc) := fun e => by
    obtain ⟨timers, debounceTimer, cursorTimer, heq⟩ := clearTimers_eq doc e
    rw [heq]
    exact .of_scene rfl id
  have hdisconnect : ∀ e : CollabEngine, Unasked e (e.disconnect doc) :=
    fun e => (within_unasked doc).disconnect (.refl e)
  cases call with
  | connect params =>
    have hwire : Unasked e (e.wire params) :=
      .of_scene rfl fun _ => Or.inr (by simp [wire, updateState])
    change Unasked e ((e.connect doc params).getD (e.wire params))
    unfold connect Page.connect
    split
    · exact hwire
    · exact hwire.trans (.of_scene rfl id)
  | disconnect => exact hdisconnect e
  | dispose =>
    have hmark : Unasked e { e with disposed := true } := .of_scene rfl id
    change Unasked e (e.dispose doc)
    unfold dispose
    dsimp only
    split
    · exact (hmark.trans (hdisconnect _)).trans (hclear _)
    · exact hmark.trans (hclear _)
  | setAdapter adapter =>
    cases adapter with
    | none => exact .of_scene rfl id
    | some adapter => exact absurd rfl (hset adapter)
  | setEncryptionKey key => exact .of_scene rfl id
  | notifyLocalChange =>
    change Unasked e (e.notifyLocalChange doc)
    unfold notifyLocalChange
    split <;> exact .of_scene rfl id
  | notifyCursorMove =>
    change Unasked e (e.notifyCursorMove doc)
    unfold notifyCursorMove
    split
    · exact .refl e
    · exact .of_scene rfl id
  | notifyCredentialsChanged reason => exact unasked_trySend rfl (by simp)
  | notifyTitleChanged title => exact unasked_trySend rfl (by simp)

theorem unasked_fire {timer : Nat} (h : e.fire doc timer = some e') : Unasked e e' := by
  have hclear : Unasked e (e.expire timer) := .of_scene rfl id
  obtain ⟨callback, -, rfl⟩ := Option.map_eq_some_iff.mp h
  cases callback with
  | flushOutgoing =>
    exact hclear.trans (.of_scene scene_flushOutgoing fun h => h.synced .flushOutgoing)
  | sendCursor =>
    refine hclear.trans (.of_scene scene_sendCursor fun h => ?_)
    have hready : Waits { e.expire timer with cursorPending := false } := h
    exact hready.synced .sendCursor

theorem unasked_settle {n : Nat} {value : Option String} (h : e.settle n value = some e') :
    Unasked e e' := by
  have hwaits : e.Waits → e'.Waits := fun hwaits => hwaits.synced (.settle h)
  obtain ⟨k, -, rfl⟩ := Option.map_eq_some_iff.mp h
  cases value with
  | none => exact .of_scene rfl hwaits
  | some value =>
    obtain ⟨-, happlied⟩ | ⟨-, hsame⟩ :=
      scene_resume (e := { e with pending := e.pending.filter (·.1 ≠ n) }) (n := n) value k
    · exact .of_applied happlied hwaits
    · exact .of_scene hsame hwaits

/-- A move, unless it is a `RoomJoined` or gives the engine an adapter. -/
theorem step_unasked (hjoined : ∀ socket event rj, m = .job (.message socket event) →
      event.event ≠ .roomJoined rj)
    (hset : ∀ adapter, m ≠ .call (.setAdapter (some adapter)))
    (hstep : e.step doc m = some e') : Unasked e e' := by
  cases m with
  | call call =>
    exact Option.some.inj hstep ▸ unasked_perform fun adapter h => hset adapter (by rw [h])
  | job job =>
    by_cases hmessage : ∃ socket event, job = .message socket event
    · obtain ⟨socket, event, rfl⟩ := hmessage
      obtain ⟨-, heq⟩ := Option.ite_none_right_eq_some.mp hstep
      exact Option.some.inj heq ▸ unasked_receive event fun rj => hjoined socket event rj rfl
    · exact unasked_run (fun socket event h => hmessage ⟨socket, event, h⟩) hstep
  | fired timer => exact unasked_fire hstep
  | settled n value => exact unasked_settle hstep

/-! ### Moves that may ask -/

/-- It asks when it is ready to. -/
theorem triggerSceneInit_ready (hpeers : 1 < e.state.peers.keys.length) (hsend : e.CanSend) :
    ∃ e', e.triggerSceneInit = some e' ∧
      e'.scene = (e.marks ++ [.asked], e.state.isInitialized) ∧ e'.initRequestSent = true := by
  have hmany : ¬ e.state.peers.keys.length ≤ 1 := by omega
  have htrigger : e.triggerSceneInit = (e.send none .sceneInitRequest).map
      fun e => { e with initRequestSent := true } := if_neg hmany
  rw [htrigger, hsend.send]
  exact ⟨_, rfl, Prod.ext (marks_record _) rfl, rfl⟩

theorem triggerSceneInit_not (h : ¬ (1 < e.state.peers.keys.length ∧ e.CanSend))
    (htrigger : e.triggerSceneInit = some e') : e'.marks = e.marks := by
  unfold triggerSceneInit at htrigger
  split at htrigger
  · exact Option.some.inj htrigger ▸ rfl
  · rename_i hmany
    obtain ⟨e₁, hsend, -⟩ := Option.map_eq_some_iff.mp htrigger
    exact absurd ⟨by omega, canSend_of_send hsend⟩ h

/-- The engine asks, with nothing to apply yet. -/
structure Asked (e e' : CollabEngine) : Prop where
  scene : e'.scene = (e.marks ++ [.asked], false)
  requested : e'.initRequestSent = true

theorem Ready.triggerSceneInit (h : Ready e) : ∃ e', e.triggerSceneInit = some e' ∧ Asked e e' := by
  obtain ⟨e', htrigger, hscene, hrequested⟩ := triggerSceneInit_ready h.peers h.canSend
  exact ⟨e', htrigger, h.initialized ▸ hscene, hrequested⟩

/-- The sync event of a `RoomJoined`. -/
theorem handleSyncEvent_roomJoined (doc : Document) (e : CollabEngine) {event : CollabEvent}
    {rj : RoomJoined} (hevent : event.event = .roomJoined rj) :
    (e.handleSyncEvent doc event).scene = e.scene ∧
      (e.handleSyncEvent doc event).initRequestSent = e.initRequestSent :=
  ⟨scene_handleSyncEvent event (by simp [hevent]),
    (Synced.handleSyncEvent event).field (·.initRequestSent) fun _ _ _ _ _ => rfl⟩

theorem asked_onEvent {event : CollabEvent} {rj : RoomJoined}
    (hevent : event.event = .roomJoined rj) (hadapter : e.adapter.isSome = true)
    (h : Ready e) : Asked e (e.onEvent doc event) := by
  have hready : Ready (e.enterRoom rj) := ⟨h.initialized, h.requested, h.peers, h.canSend⟩
  have hwants : (e.enterRoom rj).wantsScene = true := by
    have hadapter' : (e.enterRoom rj).adapter.isSome = true := hadapter
    simp [wantsScene, hready.initialized, hready.requested, hadapter']
  obtain ⟨e₁, htrigger, hasked⟩ := hready.triggerSceneInit
  have heq : e.onEvent doc event = e₁.handleSyncEvent doc event := by
    unfold onEvent
    rw [hevent]
    simp only [hwants, if_true, htrigger]
  obtain ⟨hscene, hrequested⟩ := handleSyncEvent_roomJoined doc e₁ hevent
  rw [heq]
  exact ⟨hscene.trans hasked.scene, hrequested.trans hasked.requested⟩

theorem marks_onEvent_not {event : CollabEvent} {rj : RoomJoined}
    (hevent : event.event = .roomJoined rj) (h : ¬ (e.adapter.isSome = true ∧ Ready e)) :
    (e.onEvent doc event).marks = e.marks := by
  have hsync : ∀ e₁ : CollabEngine, (e₁.handleSyncEvent doc event).marks = e₁.marks :=
    fun e₁ => congrArg Prod.fst (handleSyncEvent_roomJoined doc e₁ hevent).1
  unfold onEvent
  rw [hevent]
  dsimp only
  split
  · rename_i hwants
    have hwants' : (e.state.isInitialized = false ∧ e.initRequestSent = false) ∧
        e.adapter.isSome = true := by
      simpa [wantsScene, enterRoom, updateState] using hwants
    split
    · rfl
    · rename_i e₁ htrigger
      rw [hsync e₁]
      refine triggerSceneInit_not (e := e.enterRoom rj) (fun hasks => h ⟨hwants'.2, ?_⟩) htrigger
      exact ⟨hwants'.1.1, hwants'.1.2, hasks.1, hasks.2⟩
  · exact hsync _

/-- A `RoomJoined`, once it was told of it. -/
theorem receive_of_roomJoined (doc : Document) (e : CollabEngine) {event : CollabEvent}
    {rj : RoomJoined} (hevent : event.event = .roomJoined rj) :
    (e.receive doc event).scene = (e.onEvent doc event).scene ∧
      (e.receive doc event).initRequestSent = (e.onEvent doc event).initRequestSent := by
  unfold receive
  split
  · exact ⟨rfl, rfl⟩
  · obtain ⟨client, clientId, peers, -, heq⟩ :=
      handleRoomJoined_eq doc (e.call doc (.onEvent event)) rj
    have hhandled : (page doc).handleEvent event e =
        (page doc).handleRoomJoined rj (e.call doc (.onEvent event)) := by
      unfold Page.handleEvent
      rw [hevent]
      rfl
    rw [hhandled, heq]
    exact ⟨rfl, rfl⟩

theorem setAdapter_eq (e : CollabEngine) (adapter : Nat) : e.setAdapter (some adapter) =
    if e.state.phase = .connected ∧ e.state.isInitialized = false ∧ e.initRequestSent = false then
      (triggerSceneInit { e with adapter := some adapter }).getD { e with adapter := some adapter }
    else { e with adapter := some adapter } :=
  if_congr (by simp [and_assoc]) rfl rfl

theorem asked_setAdapter (adapter : Nat) (hphase : e.state.phase = .connected) (h : Ready e) :
    Asked e (e.setAdapter (some adapter)) := by
  have hready : Ready { e with adapter := some adapter } :=
    ⟨h.initialized, h.requested, h.peers, h.canSend⟩
  obtain ⟨e', htrigger, hasked⟩ := hready.triggerSceneInit
  rw [setAdapter_eq, if_pos ⟨hphase, h.initialized, h.requested⟩, htrigger]
  exact ⟨hasked.scene, hasked.requested⟩

theorem marks_setAdapter_not (adapter : Nat) (h : ¬ (e.state.phase = .connected ∧ Ready e)) :
    (e.setAdapter (some adapter)).marks = e.marks := by
  rw [setAdapter_eq]
  split
  · rename_i hwants
    cases htrigger : triggerSceneInit { e with adapter := some adapter } with
    | none => rfl
    | some e' =>
      refine triggerSceneInit_not (e := { e with adapter := some adapter })
        (fun hasks => ?_) htrigger
      refine h ?_
      exact ⟨hwants.1, hwants.2.1, hwants.2.2, hasks.1, hasks.2⟩
  · rfl

theorem Waits.setAdapter (h : e.Waits) (adapter : Nat) :
    Unasked e (e.setAdapter (some adapter)) := by
  rw [setAdapter_eq, if_neg]
  · exact .of_scene rfl id
  · rintro ⟨hphase, -, hrequested⟩
    obtain hsent | hother := h
    · simp [hsent] at hrequested
    · exact hother hphase

/-! ### Visits -/

/-- What the engine has done in a room. -/
def Serves (e : CollabEngine) (visit : Visit) : Prop :=
  ∃ marks, e.marks = visit.marks ++ marks ∧
    (visit.provided = true → marks.count .asked = 1 ∧
      (e.state.isInitialized = true → .applied ∈ marks) ∧ e.Waits) ∧
    (visit.provided = false → .asked ∉ marks)

theorem Unasked.serves {visit : Visit} (h : Unasked e e') (hserves : e.Serves visit) :
    e'.Serves visit := by
  obtain ⟨marks, heq, hprovided, hnot⟩ := hserves
  obtain ⟨marks', heq', hasked, hinit⟩ := h.marks
  refine ⟨marks ++ marks', by rw [heq', heq, List.append_assoc], fun hp => ?_, fun hp => ?_⟩
  · obtain ⟨honce, happlied, hwaits⟩ := hprovided hp
    refine ⟨?_, fun hup => ?_, h.waits hwaits⟩
    · rw [List.count_append, honce, List.count_eq_zero.mpr hasked]
    · obtain hbefore | hnew := hinit hup
      · exact List.mem_append_left _ (happlied hbefore)
      · exact List.mem_append_right _ hnew
  · simp [hnot hp, hasked]

/-- It has asked for the first time. -/
theorem Asked.serves (h : Asked e e') {before marks : List Mark}
    (heq : e.marks = before ++ marks) (hnot : .asked ∉ marks) : e'.Serves ⟨before, true⟩ := by
  have hscene : e'.marks = e.marks ++ [.asked] := congrArg Prod.fst h.scene
  have hinit : e'.state.isInitialized = false := congrArg Prod.snd h.scene
  refine ⟨marks ++ [.asked], by rw [hscene, heq, List.append_assoc], fun _ => ⟨?_, ?_, ?_⟩, by simp⟩
  · rw [List.count_append, List.count_eq_zero.mpr hnot]
    rfl
  · simp [hinit]
  · exact Or.inl h.requested

def AllServed (s : CollabEngine × Option Visit) : Prop := ∀ visit ∈ s.2, s.1.Serves visit

theorem AllServed.askedOnce {s : CollabEngine × Option Visit} (h : AllServed s) : AskedOnce s := by
  intro visit hvisit hp
  obtain ⟨marks, heq, hprovided, -⟩ := h visit hvisit
  obtain ⟨honce, happlied, -⟩ := hprovided hp
  exact ⟨marks, heq, honce, happlied⟩

/-- It has not asked since. -/
theorem not_askedOnce {before marks : List Mark} (heq : e.marks = before ++ marks)
    (hnot : .asked ∉ marks) : ¬ AskedOnce (e, some ⟨before, true⟩) := by
  intro h
  obtain ⟨marks', heq', honce, -⟩ := h _ rfl rfl
  obtain rfl := List.append_cancel_left (heq.symm.trans heq')
  rw [List.count_eq_zero.mpr hnot] at honce
  exact absurd honce (by simp)

/-- What a move comes to. -/
structure Answers (e : CollabEngine) (visit : Option Visit) (m : EngineMove) (e' : CollabEngine) :
    Prop where
  keeps : Prepared (e, visit) m → AllServed (e', note e m visit)
  breaks : AskedOnce (e', note e m visit) → Prepared (e, visit) m

theorem answers_roomJoined {socket : Nat} {event : CollabEvent} {rj : RoomJoined}
    (hevent : event.event = .roomJoined rj) :
    Answers e visit (.job (.message socket event)) (e.receive doc event) := by
  obtain ⟨hscene, hrequested⟩ := receive_of_roomJoined doc e hevent
  obtain ⟨eventId, fromClientId, kind⟩ := event
  obtain rfl : kind = .roomJoined rj := hevent
  by_cases hpeers : rj.room.peers = []
  · have hnote : note e (.job (.message socket ⟨eventId, fromClientId, .roomJoined rj⟩)) visit =
        none := if_pos hpeers
    exact ⟨fun _ => by simp [AllServed, hnote], fun _ hothers => absurd hpeers hothers⟩
  · have hnote : note e (.job (.message socket ⟨eventId, fromClientId, .roomJoined rj⟩)) visit =
        some ⟨e.marks, e.adapter.isSome⟩ := if_neg hpeers
    set e' := e.receive doc ⟨eventId, fromClientId, .roomJoined rj⟩
    have hnil : e.marks = e.marks ++ [] := (List.append_nil _).symm
    by_cases hasks : e.adapter.isSome = true ∧ Ready e
    · have hasked : Asked e (e.onEvent doc ⟨eventId, fromClientId, .roomJoined rj⟩) :=
        asked_onEvent rfl hasks.1 hasks.2
      have hasked' : Asked e e' := ⟨hscene.trans hasked.scene, hrequested.trans hasked.requested⟩
      refine ⟨fun _ => ?_, fun _ _ _ => hasks.2⟩
      intro v hv
      rw [hnote, hasks.1] at hv
      obtain rfl := Option.some.inj hv
      exact hasked'.serves hnil (by simp)
    · have hsame : e'.marks = e.marks :=
        (congrArg Prod.fst hscene).trans (marks_onEvent_not rfl hasks)
      cases hadapter : e.adapter.isSome with
      | false =>
        refine ⟨fun _ v hv => ?_, fun _ _ h => absurd (hadapter.symm.trans h) Bool.false_ne_true⟩
        rw [hnote, hadapter] at hv
        obtain rfl := Option.some.inj hv
        exact ⟨[], by rw [hsame, List.append_nil], by simp, by simp⟩
      | true =>
        have hunready : ¬ Ready e := fun hready => hasks ⟨hadapter, hready⟩
        refine ⟨fun hprepared => absurd (hprepared hpeers hadapter) hunready, fun hask => ?_⟩
        rw [hnote, hadapter] at hask
        exact absurd hask (not_askedOnce (hsame.trans hnil) (by simp))

theorem answers_setAdapter (hserves : AllServed (e, visit)) (adapter : Nat) :
    Answers e visit (.call (.setAdapter (some adapter))) (e.setAdapter (some adapter)) := by
  -- the first adapter of a visit, while the client is up
  by_cases hfirst : e.client.isConnected = true ∧ ∃ v ∈ visit, v.provided = false
  · obtain ⟨hup, ⟨before, provided⟩, hv, hprovided⟩ := hfirst
    obtain rfl : provided = false := hprovided
    obtain rfl : visit = some ⟨before, false⟩ := hv
    obtain ⟨marks, heq, -, hnot⟩ := hserves _ rfl
    have hnote : note e (.call (.setAdapter (some adapter))) (some ⟨before, false⟩) =
        some ⟨before, true⟩ := if_pos hup
    by_cases hasks : e.state.phase = .connected ∧ Ready e
    · refine ⟨fun _ v hv => ?_, fun _ _ _ => hasks⟩
      rw [hnote] at hv
      obtain rfl := Option.some.inj hv
      exact (asked_setAdapter adapter hasks.1 hasks.2).serves heq (hnot rfl)
    · refine ⟨fun hprepared => absurd (hprepared hup ⟨_, rfl, rfl⟩) hasks, fun hask => ?_⟩
      rw [hnote] at hask
      exact absurd hask (not_askedOnce ((marks_setAdapter_not adapter hasks).trans heq) (hnot rfl))
  · refine ⟨fun _ v hv => ?_, fun _ hup hv => absurd ⟨hup, hv⟩ hfirst⟩
    have hv' : v ∈ visit := by
      unfold note at hv
      dsimp only at hv
      split at hv
      · rename_i hup
        obtain ⟨v₀, hv₀, rfl⟩ := Option.map_eq_some_iff.mp hv
        -- the visit had an adapter already
        have hprovided : v₀.provided = true := by
          rw [← Bool.not_eq_false]
          exact fun h => hfirst ⟨hup, v₀, hv₀, h⟩
        rw [hv₀, ← hprovided]
        rfl
      · exact hv
    cases hprovided : v.provided with
    | true =>
      obtain ⟨_, -, hwas, -⟩ := hserves v hv'
      exact ((hwas hprovided).2.2.setAdapter adapter).serves (hserves v hv')
    | false =>
      -- The client is down, so the engine may find itself alone but cannot ask.
      obtain ⟨marks, heq, -, hnot⟩ := hserves v hv'
      have hdown : ¬ (e.state.phase = .connected ∧ Ready e) := fun hasks =>
        hfirst ⟨hasks.2.canSend.1, v, hv', hprovided⟩
      exact ⟨marks, (marks_setAdapter_not adapter hdown).trans heq, by simp [hprovided],
        fun _ => hnot hprovided⟩

theorem step_answers (hserves : AllServed (e, visit)) (hstep : e.step doc m = some e') :
    Answers e visit m e' := by
  by_cases hjoined : ∃ socket event rj, m = .job (.message socket event) ∧
      event.event = .roomJoined rj
  · obtain ⟨socket, event, rj, rfl, hevent⟩ := hjoined
    obtain ⟨-, heq⟩ := Option.ite_none_right_eq_some.mp hstep
    exact Option.some.inj heq ▸ answers_roomJoined hevent
  by_cases hset : ∃ adapter, m = .call (.setAdapter (some adapter))
  · obtain ⟨adapter, rfl⟩ := hset
    exact Option.some.inj hstep ▸ answers_setAdapter hserves adapter
  have hunasked : Unasked e e' := step_unasked
    (fun socket event rj hm hevent => hjoined ⟨socket, event, rj, hm, hevent⟩)
    (fun adapter hm => hset ⟨adapter, hm⟩) hstep
  have hsame : note e m visit = visit ∧ Prepared (e, visit) m := by
    unfold note Prepared
    split
    · rename_i socket eventId fromClientId rj
      exact absurd ⟨socket, _, rj, rfl, rfl⟩ hjoined
    · rename_i adapter
      exact absurd ⟨adapter, rfl⟩ hset
    · exact ⟨rfl, trivial⟩
  refine ⟨fun _ v hv => ?_, fun _ => hsame.2⟩
  rw [hsame.1] at hv
  exact hunasked.serves (hserves v hv)

/-- In every run, the engine has in all states asked once for the scene of each room that it has
joined with others in it and has had an adapter in, and waited for it, exactly when at all moves it
was ready to. -/
theorem askedOnce_iff (doc : Document) (options : CollabClientOptions) (maxRetries : Nat)
    (adapter : Option Nat) (ms : List EngineMove) {t : CollabEngine}
    (hrun : Machine.exec (step doc) (start options maxRetries adapter) ms = some t) :
    Machine.Throughout (Machine.watch (step doc) note) AskedOnce
        (start options maxRetries adapter, none) ms ↔
      Machine.Guarded (Machine.watch (step doc) note) Prepared
        (start options maxRetries adapter, none) ms := by
  obtain ⟨_, hwatch⟩ := Machine.exec_watch hrun (none : Option Visit)
  refine Machine.throughout_iff_guarded (I := AllServed) (fun _ h => h.askedOnce) ?_ ?_
    (fun _ h => absurd h (by simp)) hwatch
  · intro s m s' hserves hprepared hstep
    obtain ⟨e', he', rfl⟩ := Option.map_eq_some_iff.mp hstep
    exact (step_answers hserves he').keeps hprepared
  · intro s m s' hserves hstep hasked
    obtain ⟨e', he', rfl⟩ := Option.map_eq_some_iff.mp hstep
    exact (step_answers hserves he').breaks hasked

instance (e : CollabEngine) : Decidable e.Ready :=
  decidable_of_iff (e.state.isInitialized = false ∧ e.initRequestSent = false ∧
      1 < e.state.peers.keys.length ∧ e.CanSend)
    ⟨fun h => ⟨h.1, h.2.1, h.2.2.1, h.2.2.2⟩,
      fun h => ⟨h.initialized, h.requested, h.peers, h.canSend⟩⟩

instance (s : CollabEngine × Option Visit) (m : EngineMove) : Decidable (Prepared s m) := by
  unfold Prepared
  split <;> infer_instance

/-- It joins a room with another in it. -/
def joinedOthers : List EngineMove :=
  [.call (.connect (plainParams false)), .job (.opened 0),
    .job (.message 0 (joinedAs "a" "b" ["b"]))]

def snapshotEvent : CollabEvent where
  eventId := "e"
  fromClientId := "b"
  event := .sceneInitResponse { payload := "snapshot" }

/-- It gets its adapter after that, asks, and applies what the other sends. -/
theorem askedOnce_later : ∃ t,
    Machine.exec (step .blank) (start {} 5 none)
      (joinedOthers ++ [.call (.setAdapter (some 0)), .job (.message 0 snapshotEvent)]) = some t ∧
    t.marks = [.asked, .applied] ∧
    Machine.Throughout (Machine.watch (step .blank) note) AskedOnce (start {} 5 none, none)
      (joinedOthers ++ [.call (.setAdapter (some 0)), .job (.message 0 snapshotEvent)]) := by
  have hrun : (Machine.execIf (Machine.watch (step .blank) note) Prepared (start {} 5 none, none)
      (joinedOthers ++ [.call (.setAdapter (some 0)), .job (.message 0 snapshotEvent)])).any
        (fun s => s.1.marks = [.asked, .applied]) = true := by
    decide +kernel
  obtain ⟨s, hs, hmarks⟩ := (Option.any_eq_true _ _).mp hrun
  obtain ⟨hguarded, hs⟩ := Machine.execIf_eq_some hs
  have ht := Machine.exec_of_watch hs
  exact ⟨s.1, ht, of_decide_eq_true hmarks, (askedOnce_iff _ _ _ _ _ ht).mpr hguarded⟩

/-- It has its adapter before, and asks nobody. -/
theorem joined_unasked : ¬ ∀ doc options maxRetries adapter ms s,
    Machine.exec (Machine.watch (step doc) note) (start options maxRetries adapter, none) ms =
      some s → AskedOnce s := by
  intro h
  have hrun : (Machine.exec (Machine.watch (step .blank) note) (start {} 5 (some 0), none)
      joinedOthers).any
      (fun s => s.1.marks = [] ∧ s.2.any (·.provided)) = true := by
    decide +kernel
  obtain ⟨s, hs, hstate⟩ := (Option.any_eq_true _ _).mp hrun
  obtain ⟨hmarks, hvisit⟩ := of_decide_eq_true hstate
  obtain ⟨visit, hvisit, hprovided⟩ := (Option.any_eq_true _ _).mp hvisit
  obtain ⟨marks, heq, honce, -⟩ := h _ _ _ _ _ s hs visit hvisit hprovided
  obtain rfl : marks = [] := (List.append_eq_nil_iff.mp (heq.symm.trans hmarks)).2
  exact absurd honce (by simp)

end CollabEngine

end MassRelay.Ts

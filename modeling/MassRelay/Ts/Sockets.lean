import MassRelay.Ts.Connection

/-!
# MassRelay.Ts.Sockets

The sockets of a client, one method at a time: that it waits for at most one thing that may
open one (`OneLine`), what it keeps when it lets its socket go (`Left`), and that it sends a
join only when a socket opens (`NoJoin`).
-/

namespace MassRelay.Ts

/-! ### What may open a socket -/

/-- A task that may end in a new socket. -/
def Task.rejoins : Task → Bool
  | .opening _ => false
  | _ => true

namespace CollabClient

variable {c : CollabClient} {grpc : Option Nat} {action : Action}

def underway (c : CollabClient) : List Task := c.tasks.filter Task.rejoins

/-- No socket, and nothing that may open one. -/
structure Idle (c : CollabClient) : Prop where
  grpc : c.grpc = none
  underway : c.underway = []

instance : Decidable c.Idle :=
  decidable_of_iff (c.grpc = none ∧ c.underway = []) ⟨fun h => ⟨h.1, h.2⟩, fun h => ⟨h.1, h.2⟩⟩

theorem not_retry (h : c.underway = []) (timer : Nat) : .retry timer ∉ c.tasks := by
  intro hmem
  have : Task.retry timer ∈ c.underway := List.mem_filter.mpr ⟨hmem, rfl⟩
  simp [h] at this

/-- The client holds the one socket that is open, or waits for one thing that may open one. -/
structure OneLine (c : CollabClient) : Prop where
  sockets : c.sockets = c.grpc.toList
  one : c.underway.length + c.sockets.length ≤ 1
  retry : ∀ timer, .retry timer ∈ c.tasks → c.retryTimer = some timer

@[simp] theorem close_grpc : (c.close grpc).grpc = c.grpc := by cases grpc <;> rfl
@[simp] theorem close_clientId : (c.close grpc).clientId = c.clientId := by cases grpc <;> rfl
@[simp] theorem close_isConnected : (c.close grpc).isConnected = c.isConnected := by
  cases grpc <;> rfl
@[simp] theorem close_isConnecting : (c.close grpc).isConnecting = c.isConnecting := by
  cases grpc <;> rfl
@[simp] theorem close_sessionId : (c.close grpc).sessionId = c.sessionId := by cases grpc <;> rfl
@[simp] theorem close_peers : (c.close grpc).peers = c.peers := by cases grpc <;> rfl
@[simp] theorem close_options : (c.close grpc).options = c.options := by cases grpc <;> rfl
@[simp] theorem close_retryCount : (c.close grpc).retryCount = c.retryCount := by cases grpc <;> rfl
@[simp] theorem close_retryTimer : (c.close grpc).retryTimer = c.retryTimer := by cases grpc <;> rfl
@[simp] theorem close_explicitDisconnect :
    (c.close grpc).explicitDisconnect = c.explicitDisconnect := by cases grpc <;> rfl
@[simp] theorem close_hasJoined : (c.close grpc).hasJoined = c.hasJoined := by cases grpc <;> rfl
@[simp] theorem close_maxRetries : (c.close grpc).maxRetries = c.maxRetries := by cases grpc <;> rfl
@[simp] theorem close_tasks : (c.close grpc).tasks = c.tasks := by cases grpc <;> rfl

@[simp] theorem clearRetry_retryTimer : c.clearRetry.retryTimer = none := by
  unfold clearRetry
  split
  · assumption
  · rfl
@[simp] theorem clearRetry_grpc : c.clearRetry.grpc = c.grpc := by
  unfold clearRetry; split <;> rfl
@[simp] theorem clearRetry_clientId : c.clearRetry.clientId = c.clientId := by
  unfold clearRetry; split <;> rfl
@[simp] theorem clearRetry_isConnected : c.clearRetry.isConnected = c.isConnected := by
  unfold clearRetry; split <;> rfl
@[simp] theorem clearRetry_peers : c.clearRetry.peers = c.peers := by
  unfold clearRetry; split <;> rfl
@[simp] theorem clearRetry_sockets : c.clearRetry.sockets = c.sockets := by
  unfold clearRetry; split <;> rfl
@[simp] theorem clearRetry_options : c.clearRetry.options = c.options := by
  unfold clearRetry; split <;> rfl
@[simp] theorem clearRetry_retryCount : c.clearRetry.retryCount = c.retryCount := by
  unfold clearRetry; split <;> rfl
@[simp] theorem clearRetry_maxRetries : c.clearRetry.maxRetries = c.maxRetries := by
  unfold clearRetry; split <;> rfl
@[simp] theorem clearRetry_explicitDisconnect :
    c.clearRetry.explicitDisconnect = c.explicitDisconnect := by
  unfold clearRetry; split <;> rfl
@[simp] theorem clearRetry_hasJoined : c.clearRetry.hasJoined = c.hasJoined := by
  unfold clearRetry; split <;> rfl
@[simp] theorem clearRetry_sessionId : c.clearRetry.sessionId = c.sessionId := by
  unfold clearRetry; split <;> rfl
@[simp] theorem sendOn_grpc : (c.sendOn action).grpc = c.grpc := by
  unfold sendOn; split <;> rfl
@[simp] theorem sendOn_clientId : (c.sendOn action).clientId = c.clientId := by
  unfold sendOn; split <;> rfl
@[simp] theorem sendOn_isConnected : (c.sendOn action).isConnected = c.isConnected := by
  unfold sendOn; split <;> rfl
@[simp] theorem sendOn_isConnecting : (c.sendOn action).isConnecting = c.isConnecting := by
  unfold sendOn; split <;> rfl
@[simp] theorem sendOn_peers : (c.sendOn action).peers = c.peers := by
  unfold sendOn; split <;> rfl
@[simp] theorem sendOn_sockets : (c.sendOn action).sockets = c.sockets := by
  unfold sendOn; split <;> rfl
@[simp] theorem sendOn_tasks : (c.sendOn action).tasks = c.tasks := by
  unfold sendOn; split <;> rfl
@[simp] theorem sendOn_retryTimer : (c.sendOn action).retryTimer = c.retryTimer := by
  unfold sendOn; split <;> rfl
@[simp] theorem sendOn_options : (c.sendOn action).options = c.options := by
  unfold sendOn; split <;> rfl
@[simp] theorem sendOn_retryCount : (c.sendOn action).retryCount = c.retryCount := by
  unfold sendOn; split <;> rfl
@[simp] theorem sendOn_maxRetries : (c.sendOn action).maxRetries = c.maxRetries := by
  unfold sendOn; split <;> rfl
@[simp] theorem sendOn_explicitDisconnect :
    (c.sendOn action).explicitDisconnect = c.explicitDisconnect := by
  unfold sendOn; split <;> rfl
@[simp] theorem sendOn_hasJoined : (c.sendOn action).hasJoined = c.hasJoined := by
  unfold sendOn; split <;> rfl
@[simp] theorem sendOn_sessionId : (c.sendOn action).sessionId = c.sessionId := by
  unfold sendOn; split <;> rfl

@[simp] theorem openWithToken_clientId : c.openWithToken.clientId = c.clientId := by
  unfold openWithToken; split <;> rfl
@[simp] theorem openWithToken_isConnected : c.openWithToken.isConnected = c.isConnected := by
  unfold openWithToken; split <;> rfl
@[simp] theorem openWithToken_peers : c.openWithToken.peers = c.peers := by
  unfold openWithToken; split <;> rfl
@[simp] theorem openWithToken_options : c.openWithToken.options = c.options := by
  unfold openWithToken; split <;> rfl
@[simp] theorem openWithToken_maxRetries : c.openWithToken.maxRetries = c.maxRetries := by
  unfold openWithToken; split <;> rfl
@[simp] theorem openWithToken_explicitDisconnect :
    c.openWithToken.explicitDisconnect = c.explicitDisconnect := by
  unfold openWithToken; split <;> rfl
@[simp] theorem openWithToken_hasJoined : c.openWithToken.hasJoined = c.hasJoined := by
  unfold openWithToken; split <;> rfl

theorem stop_eq (c : CollabClient) :
    c.stop = { c.clearRetry with explicitDisconnect := true, isConnecting := false } := by
  unfold stop clearRetry
  dsimp only
  split <;> rfl

theorem close_sockets (h : c.sockets = grpc.toList) : (c.close grpc).sockets = [] := by
  cases grpc with
  | none => exact h
  | some socket => simp [close, h]

/-- The client without its socket. -/
structure Left (c c' : CollabClient) : Prop where
  grpc : c'.grpc = none
  clientId : c'.clientId = ""
  isConnected : c'.isConnected = false
  isConnecting : c'.isConnecting = false
  peers : c'.peers = ∅
  sockets : c'.sockets = []
  tasks : c'.tasks = c.tasks
  retryTimer : c'.retryTimer = c.retryTimer
  options : c'.options = c.options
  retryCount : c'.retryCount = c.retryCount
  maxRetries : c'.maxRetries = c.maxRetries
  hasJoined : c'.hasJoined = c.hasJoined
  sessionId : c'.sessionId = c.sessionId

/-- The client closes its socket. -/
theorem left_close (h : c.sockets = c.grpc.toList) (explicit : Bool) :
    c.Left ({ c with explicitDisconnect := explicit }.resetState.close c.grpc) := by
  refine ⟨?_, ?_, ?_, ?_, ?_, close_sockets h, ?_, ?_, ?_, ?_, ?_, ?_, ?_⟩ <;> simp [resetState]

@[simp] theorem hangUp_grpc : c.hangUp.grpc = none := by simp [hangUp, resetState]
@[simp] theorem hangUp_clientId : c.hangUp.clientId = "" := by simp [hangUp, resetState]
@[simp] theorem hangUp_isConnected : c.hangUp.isConnected = false := by simp [hangUp, resetState]
@[simp] theorem hangUp_isConnecting : c.hangUp.isConnecting = false := by simp [hangUp, resetState]
@[simp] theorem hangUp_peers : c.hangUp.peers = ∅ := by simp [hangUp, resetState]
@[simp] theorem hangUp_tasks : c.hangUp.tasks = c.tasks := by
  unfold hangUp; dsimp only; split <;> simp [resetState]
@[simp] theorem hangUp_retryTimer : c.hangUp.retryTimer = c.retryTimer := by
  unfold hangUp; dsimp only; split <;> simp [resetState]
@[simp] theorem hangUp_options : c.hangUp.options = c.options := by
  unfold hangUp; dsimp only; split <;> simp [resetState]
@[simp] theorem hangUp_retryCount : c.hangUp.retryCount = c.retryCount := by
  unfold hangUp; dsimp only; split <;> simp [resetState]
@[simp] theorem hangUp_maxRetries : c.hangUp.maxRetries = c.maxRetries := by
  unfold hangUp; dsimp only; split <;> simp [resetState]
@[simp] theorem hangUp_hasJoined : c.hangUp.hasJoined = c.hasJoined := by
  unfold hangUp; dsimp only; split <;> simp [resetState]
@[simp] theorem hangUp_sessionId : c.hangUp.sessionId = c.sessionId := by
  unfold hangUp; dsimp only; split <;> simp [resetState]
@[simp] theorem hangUp_explicitDisconnect : c.hangUp.explicitDisconnect = c.explicitDisconnect := by
  unfold hangUp
  dsimp only
  split <;> simp [resetState]

theorem left_hangUp (h : c.sockets = c.grpc.toList) : c.Left c.hangUp := by
  have hsockets : c.hangUp.sockets = [] := by
    unfold hangUp
    dsimp only
    split <;> refine close_sockets ?_ <;> simpa [resetState] using h
  refine ⟨?_, ?_, ?_, ?_, ?_, hsockets, ?_, ?_, ?_, ?_, ?_, ?_, ?_⟩ <;> simp

/-- Its socket closes. -/
theorem left_closed {socket : Nat} (h : c.sockets = c.grpc.toList) (hgrpc : c.grpc = some socket) :
    c.Left { c with sockets := c.sockets.erase socket }.resetState := by
  refine ⟨rfl, rfl, rfl, rfl, rfl, ?_, rfl, rfl, rfl, rfl, rfl, rfl, rfl⟩
  simp [resetState, h, hgrpc]

namespace OneLine

theorem idle_of_socket (h : OneLine c) (hgrpc : c.grpc ≠ none) : c.underway = [] := by
  obtain ⟨socket, hsocket⟩ := Option.ne_none_iff_exists'.mp hgrpc
  have hone := h.one
  rw [h.sockets, hsocket, Option.toList_some, List.length_singleton] at hone
  exact List.eq_nil_of_length_eq_zero (by omega)

/-- Only what the line is about matters. -/
theorem congr (h : OneLine c) {c' : CollabClient} (hsockets : c'.sockets = c.sockets)
    (hgrpc : c'.grpc = c.grpc) (htasks : c'.tasks = c.tasks)
    (htimer : c'.retryTimer = c.retryTimer) : OneLine c' where
  sockets := by rw [hsockets, hgrpc, h.sockets]
  one := by
    rw [underway, htasks, hsockets]
    exact h.one
  retry := by
    rw [htasks, htimer]
    exact h.retry

/-- The client lets its socket go. -/
theorem drop (h : OneLine c) {c' : CollabClient} (hleft : c.Left c') : OneLine c' where
  sockets := by rw [hleft.sockets, hleft.grpc, Option.toList_none]
  one := by
    rw [underway, hleft.tasks, hleft.sockets]
    exact Nat.le_trans (Nat.le_add_right _ _) h.one
  retry := by
    rw [hleft.tasks, hleft.retryTimer]
    exact h.retry

theorem sendOn (h : OneLine c) (action : Action) : OneLine (c.sendOn action) :=
  h.congr sendOn_sockets sendOn_grpc sendOn_tasks sendOn_retryTimer

/-- A task ends. -/
theorem endTask (h : OneLine c) (task : Task) : OneLine (c.endTask task) where
  sockets := h.sockets
  one := Nat.le_trans (Nat.add_le_add_right
    (List.Sublist.filter _ List.filter_sublist).length_le _) h.one
  retry := fun timer htimer => h.retry timer (List.mem_filter.mp htimer).1

/-- The task was all that the client waited for. -/
theorem idle_endTask (h : OneLine c) {task : Task} (htask : task ∈ c.tasks)
    (hrejoins : task.rejoins = true) : (c.endTask task).Idle := by
  have hmem : task ∈ c.underway := List.mem_filter.mpr ⟨htask, hrejoins⟩
  have hone := h.one
  have hlength := List.length_pos_of_mem hmem
  constructor
  · have hsockets := h.sockets
    rw [List.eq_nil_of_length_eq_zero (l := c.sockets) (by omega)] at hsockets
    exact Option.toList_eq_nil_iff.mp hsockets.symm
  · obtain ⟨task', htask'⟩ := List.length_eq_one_iff.mp (by omega : c.underway.length = 1)
    rw [htask', List.mem_singleton] at hmem
    have hcomm : (c.endTask task).underway = c.underway.filter (· ≠ task) := by
      simp only [underway, CollabClient.endTask, List.filter_filter, Bool.and_comm]
    rw [hcomm, htask', ← hmem]
    simp

/-- No retry is left where the client knows of none. -/
theorem not_retry_of_timer (h : OneLine c) (htimer : c.retryTimer = none) (timer : Nat) :
    .retry timer ∉ c.tasks := by
  intro hmem
  have := h.retry timer hmem
  simp [htimer] at this

/-- A closed socket that is not the client's. -/
theorem erase (h : OneLine c) {socket : Nat} (hgrpc : c.grpc ≠ some socket) :
    c.sockets.erase socket = c.sockets := by
  refine List.erase_of_not_mem fun hmem => hgrpc ?_
  rw [h.sockets, Option.mem_toList] at hmem
  exact hmem

theorem mem_clearRetry {task : Task} (hmem : task ∈ c.clearRetry.tasks) : task ∈ c.tasks := by
  unfold CollabClient.clearRetry at hmem
  split at hmem
  · exact hmem
  · exact (List.mem_filter.mp hmem).1

theorem clearRetry (h : OneLine c) : OneLine c.clearRetry := by
  unfold CollabClient.clearRetry
  split
  · exact h
  · rename_i timer htimer
    refine ⟨h.sockets, (h.endTask _).one, fun timer' htimer' => ?_⟩
    have hmem := List.mem_filter.mp htimer'
    have := h.retry timer' hmem.1
    rw [htimer, Option.some.injEq] at this
    simp [this] at hmem

/-- The client starts to wait for something that may open a socket. -/
theorem await (h : OneLine c) (hidle : c.Idle) {c' : CollabClient} {task : Task}
    (hsockets : c'.sockets = c.sockets) (hgrpc : c'.grpc = c.grpc)
    (htasks : c'.tasks = c.tasks ++ [task])
    (htimer : ∀ timer, task = .retry timer → c'.retryTimer = some timer) : OneLine c' where
  sockets := by rw [hsockets, hgrpc, h.sockets]
  one := by
    have hunderway : c'.underway = [task].filter Task.rejoins := by
      have hnil : c.tasks.filter Task.rejoins = [] := hidle.underway
      rw [underway, htasks, List.filter_append, hnil, List.nil_append]
    rw [hunderway, hsockets, h.sockets, hidle.grpc]
    exact List.length_filter_le _ _
  retry := by
    intro timer hmem
    rw [htasks, List.mem_append, List.mem_singleton] at hmem
    rcases hmem with hold | hnew
    · exact absurd hold (not_retry hidle.underway timer)
    · exact htimer timer hnew.symm

/-- The retry timer fires. -/
theorem checkRoom (h : OneLine c) (hidle : c.Idle) :
    OneLine { c with retryTimer := none }.checkRoom := by
  have hfired : OneLine { c with retryTimer := none } :=
    ⟨h.sockets, h.one, fun timer hmem => absurd hmem (not_retry hidle.underway timer)⟩
  exact hfired.await ⟨hidle.grpc, hidle.underway⟩ rfl rfl rfl fun _ heq => by cases heq

theorem openWebSocket (h : OneLine c) (hidle : c.Idle) (token : Option String) :
    OneLine (c.openWebSocket token) where
  sockets := by
    rw [CollabClient.openWebSocket, h.sockets, hidle.grpc]
    rfl
  one := by
    have hnil : c.tasks.filter Task.rejoins = [] := hidle.underway
    have hunderway : (c.openWebSocket token).underway = [] := by
      rw [underway, CollabClient.openWebSocket, List.filter_append, hnil]
      rfl
    rw [hunderway, CollabClient.openWebSocket, h.sockets, hidle.grpc]
    exact le_rfl
  retry := by
    intro timer hmem
    rcases List.mem_append.mp hmem with hold | hnew
    · exact h.retry timer hold
    · cases List.mem_singleton.mp hnew

theorem openWithToken (h : OneLine c) (hidle : c.Idle) : OneLine c.openWithToken := by
  unfold CollabClient.openWithToken
  split
  · exact h.await hidle rfl rfl rfl (fun _ heq => by cases heq)
  · exact h.openWebSocket hidle _

end OneLine

end CollabClient

/-! ### Joins -/

def Command.isJoin : Command → Bool
  | .send _ (.join _) => true
  | _ => false

namespace CollabClient

variable {c c' c'' : CollabClient}

/-- From the one to the other, the client sends no join. -/
def NoJoin (c c' : CollabClient) : Prop :=
  ∃ asked, c'.asked = c.asked ++ asked ∧ ∀ command ∈ asked, command.isJoin = false

namespace NoJoin

theorem of_eq (h : c'.asked = c.asked) : c.NoJoin c' := ⟨[], by rw [h, List.append_nil], by simp⟩

theorem of_concat {command : Command} (h : c'.asked = c.asked ++ [command])
    (hjoin : command.isJoin = false) : c.NoJoin c' :=
  ⟨[command], h, fun command' hmem => by rw [List.mem_singleton.mp hmem, hjoin]⟩

theorem refl (c : CollabClient) : c.NoJoin c := of_eq rfl

theorem trans (h : c.NoJoin c') (h' : c'.NoJoin c'') : c.NoJoin c'' := by
  obtain ⟨asked, heq, hjoin⟩ := h
  obtain ⟨asked', heq', hjoin'⟩ := h'
  refine ⟨asked ++ asked', by rw [heq', heq, List.append_assoc], fun command hmem => ?_⟩
  exact (List.mem_append.mp hmem).elim (hjoin command) (hjoin' command)

theorem length_le (h : c.NoJoin c') : c.asked.length ≤ c'.asked.length := by
  obtain ⟨asked, heq, -⟩ := h
  rw [heq, List.length_append]
  exact Nat.le_add_right _ _

theorem close (c : CollabClient) (grpc : Option Nat) : c.NoJoin (c.close grpc) := by
  cases grpc with
  | none => exact refl c
  | some socket => exact of_concat rfl rfl

theorem resetState (c : CollabClient) : c.NoJoin c.resetState := of_eq rfl

theorem clearRetry (c : CollabClient) : c.NoJoin c.clearRetry := by
  unfold CollabClient.clearRetry
  split
  · exact refl c
  · exact of_concat rfl rfl

theorem stop (c : CollabClient) : c.NoJoin c.stop := by
  rw [CollabClient.stop_eq]
  exact (clearRetry c).trans (of_eq rfl)

theorem hangUp (c : CollabClient) : c.NoJoin c.hangUp := by
  unfold CollabClient.hangUp CollabClient.sendOn
  dsimp only
  split
  · split
    · exact (resetState c).trans (close _ _)
    · exact NoJoin.trans (of_concat rfl rfl) ((resetState _).trans (close _ _))
  · exact (resetState c).trans (close _ _)

theorem openWithToken (c : CollabClient) : c.NoJoin c.openWithToken := by
  unfold CollabClient.openWithToken
  split <;> exact of_concat rfl rfl

end NoJoin

end CollabClient

/-- A callback that says how the connection is. -/
def Callback.isStatus : Callback → Bool
  | .onDisconnect | .onSessionEnded _ | .onError _ | .onReconnecting _ => true
  | _ => false

def Callback.isEvent : Callback → Bool
  | .onEvent _ => true
  | _ => false

/-- A callback that the client may make of an event after `onEvent`. -/
def Callback.follows (event : Event) : Callback → Bool
  | .onEvent _ => false
  | .onConnect _ => (event matches .roomJoined _)
  | _ => true

theorem Callback.isEvent_of_follows {event : Event} {callback : Callback}
    (h : callback.follows event = true) : callback.isEvent = false := by
  cases callback with
  | onEvent event' => simp [follows] at h
  | _ => rfl

namespace Page

variable {σ : Type} {page : Page σ} {R : σ → σ → Prop} {s t : σ}

/-- What any change of the client without a join and any callback about the connection keeps. -/
structure Within (page : Page σ) (R : σ → σ → Prop) : Prop where
  refl : ∀ s, R s s
  trans : ∀ {s t u}, R s t → R t u → R s u
  modify : ∀ {f : CollabClient → CollabClient} t, (∀ c : CollabClient, c.NoJoin (f c)) →
    R t (page.modify f t)
  call : ∀ callback t, callback.isStatus = true → R t (page.call callback t)

namespace Within

variable (hR : page.Within R)

include hR

theorem modified (h : R s t) {f : CollabClient → CollabClient}
    (hf : ∀ c : CollabClient, c.NoJoin (f c)) : R s (page.modify f t) :=
  hR.trans h (hR.modify t hf)

theorem called (h : R s t) (callback : Callback) (hstatus : callback.isStatus = true) :
    R s (page.call callback t) :=
  hR.trans h (hR.call callback t hstatus)

theorem endSession (h : R s t) (reason : String) : R s (page.endSession reason t) :=
  hR.called (hR.modified h fun _ => .of_eq (by rfl)) _ rfl

theorem closeFromRelay (h : R s t) : R s (page.closeFromRelay t) := by
  have hclose := hR.modified h (f := fun c =>
    { c with explicitDisconnect := true }.resetState.close (page.client t).grpc)
    fun c => CollabClient.NoJoin.trans (.of_eq (by rfl)) (.close _ _)
  unfold Page.closeFromRelay
  dsimp only
  split
  · exact hR.called hclose _ rfl
  · exact hclose

theorem scheduleReconnect (h : R s t) : R s (page.scheduleReconnect t) := by
  unfold Page.scheduleReconnect
  split
  · exact hR.endSession h _
  · exact hR.modified (hR.called (hR.modified h fun _ => .of_eq (by rfl)) (.onReconnecting _) rfl)
      fun _ => .of_concat (by rfl) (by rfl)

theorem dropAndReconnect (h : R s t) : R s (page.dropAndReconnect t) := by
  have hclose := hR.modified h (f := fun c => c.resetState.close (page.client t).grpc)
    fun c => (CollabClient.NoJoin.resetState c).trans (.close _ _)
  unfold Page.dropAndReconnect
  dsimp only
  split
  · exact hR.scheduleReconnect (hR.called hclose _ rfl)
  · exact hR.scheduleReconnect hclose

/-- The rest of an event, for what its own callbacks keep as well. -/
theorem handleEvent (event : CollabEvent)
    (hcall : ∀ callback t, callback.follows event.event = true → R t (page.call callback t)) :
    R (page.call (.onEvent event) t) (page.handleEvent event t) := by
  set u := page.call (.onEvent event) t
  have hcalled : ∀ {s t callback}, R s t → callback.follows event.event = true →
      R s (page.call callback t) := fun h hfollows => hR.trans h (hcall _ _ hfollows)
  have hpeer : ∀ {t : σ} (peer : PeerInfoJson), R u t → R u (page.addPeer peer t) := by
    intro t peer ht
    refine hcalled (hR.modified ht fun c => .of_eq ?_) rfl
    unfold CollabClient.setPeer
    split <;> rfl
  -- induction on the peers of the answer, each with a callback of its own
  have hpeers : ∀ (peers : List (String × PeerInfo)) (t : σ), R u t →
      R u (peers.foldl (fun t entry => page.addPeer (peerToJson entry.2) t) t) := by
    intro peers
    induction peers with
    | nil => exact fun t ht => ht
    | cons entry peers ih => exact fun t ht => ih _ (hpeer _ ht)
  have hu := hR.refl u
  unfold Page.handleEvent
  cases hkind : event.event with
  | error err =>
    have herror : R u (page.call (.onErrorEvent err.code err.message) u) := hcalled hu rfl
    simp only [Page.handleError]
    split
    · exact herror
    · split
      · exact hR.called (hR.closeFromRelay herror) _ rfl
      · exact hR.closeFromRelay herror
  | roomJoined rj =>
    have hroom := hR.modified hu (f := .setRoom rj) fun _ => .of_eq (by rfl)
    have hconnect : R u (page.call (.onConnect (page.client (page.modify (.setRoom rj) u)).clientId)
        (page.modify (.setRoom rj) u)) := hcalled hroom (by rw [hkind]; rfl)
    exact hpeers _ _ (hpeer _ (hR.modified hconnect fun _ => .of_eq (by rfl)))
  | peerJoined peer => exact hpeer _ hu
  | sessionEnded reason =>
    simp only [Page.handleSessionEnded]
    split
    · exact hR.dropAndReconnect hu
    · exact hR.called (hR.closeFromRelay hu) _ rfl
  | peerLeft | ownerChanged | titleChanged =>
    exact hcalled (hR.modified hu fun _ => .of_eq (by rfl)) rfl
  | credentialsChanged | appMessage => exact hcalled hu rfl
  | presence | sceneUpdate | cursorUpdate | textUpdate | sceneInitResponse | sceneInitRequest =>
    exact hu

theorem disconnect (h : R s t) : R s (page.disconnect t) := by
  have hstop := hR.modified h CollabClient.NoJoin.stop
  unfold Page.disconnect
  dsimp only
  split
  · exact hstop
  · split
    · exact hR.called (hR.modified hstop CollabClient.NoJoin.hangUp) _ rfl
    · exact hR.modified hstop CollabClient.NoJoin.hangUp

theorem handleConnectionClosed (h : R s t) : R s (page.handleConnectionClosed t) := by
  have hreset := hR.modified h CollabClient.NoJoin.resetState
  have hrest : ∀ t, R s t → R s
      (if !(page.client t).explicitDisconnect && (page.client t).hasJoined &&
        (page.client t).reconnectEnabled then page.scheduleReconnect t else t) := by
    intro t ht
    split
    · exact hR.scheduleReconnect ht
    · exact ht
  unfold Page.handleConnectionClosed
  dsimp only
  refine hrest _ ?_
  split
  · exact hR.called hreset _ rfl
  · exact hreset

/-- A job, unless a socket opens or delivers. -/
theorem run {job : Job} (hopened : ∀ socket, job ≠ .opened socket)
    (hmessage : ∀ socket event, job ≠ .message socket event) (hrun : page.run job s = some t) :
    R s t := by
  have hend : ∀ task, R s (page.modify (.endTask task) s) :=
    fun task => hR.modify s fun _ => .of_eq rfl
  cases job with
  | opened socket => exact absurd rfl (hopened socket)
  | message socket event => exact absurd rfl (hmessage socket event)
  | refused socket =>
    obtain ⟨-, rfl⟩ := Page.settle_eq_some.mp hrun
    exact hend _
  | closed socket =>
    obtain ⟨-, heq⟩ := Option.ite_none_right_eq_some.mp hrun
    obtain rfl := Option.some.inj heq
    split
    · exact hR.handleConnectionClosed (hR.modify s fun _ => .of_eq (by rfl))
    · exact hR.modify s fun _ => .of_eq (by rfl)
  | failed socket message =>
    obtain ⟨-, heq⟩ := Option.ite_none_right_eq_some.mp hrun
    exact Option.some.inj heq ▸ hR.call _ s rfl
  | fired timer =>
    obtain ⟨-, rfl⟩ := Page.settle_eq_some.mp hrun
    exact hR.modified (hend _) fun _ => .of_concat (by rfl) (by rfl)
  | checked fetch status =>
    obtain ⟨-, rfl⟩ := Page.settle_eq_some.mp hrun
    unfold Page.roomChecked
    split
    · exact hend _
    · split
      · exact hR.endSession (hend _) _
      · split
        · exact hR.modified (hend _) CollabClient.NoJoin.openWithToken
        · exact hR.scheduleReconnect (hend _)
  | gotToken request token =>
    obtain ⟨-, rfl⟩ := Page.settle_eq_some.mp hrun
    unfold Page.gotToken
    split
    · exact hend _
    · exact hR.modified (hend _) fun _ => .of_concat (by rfl) (by rfl)
  | tokenFailed request message =>
    obtain ⟨-, rfl⟩ := Page.settle_eq_some.mp hrun
    have hfailed := hR.called (hend (.token request)) (.onError message) rfl
    unfold Page.getTokenFailed
    dsimp only
    split
    · exact hfailed
    · split
      · exact hR.scheduleReconnect hfailed
      · exact hR.modified hfailed fun _ => .of_eq (by rfl)

end Within

/-- The same of a page. -/
def NoJoin (page : Page σ) (s t : σ) : Prop := (page.client s).NoJoin (page.client t)

theorem NoJoin.refl (s : σ) : page.NoJoin s s := CollabClient.NoJoin.refl _

theorem within_noJoin (hcall : ∀ callback t, page.NoJoin t (page.call callback t)) :
    page.Within page.NoJoin where
  refl := .refl
  trans h h' := CollabClient.NoJoin.trans h h'
  modify t hf := by
    rw [NoJoin, page.client_modify]
    exact hf _
  call callback t _ := hcall callback t

/-- A job sends no join, unless a socket opens. -/
theorem NoJoin.run (hcall : ∀ callback t, page.NoJoin t (page.call callback t)) {job : Job}
    (hjob : ∀ socket, job ≠ .opened socket) (hrun : page.run job s = some t) : page.NoJoin s t := by
  by_cases hmessage : ∃ socket event, job = .message socket event
  · obtain ⟨socket, event, rfl⟩ := hmessage
    obtain ⟨-, heq⟩ := Option.ite_none_right_eq_some.mp hrun
    obtain rfl := Option.some.inj heq
    exact CollabClient.NoJoin.trans (hcall _ s)
      ((within_noJoin hcall).handleEvent event fun callback t _ => hcall callback t)
  · exact (within_noJoin hcall).run hjob (fun socket event h => hmessage ⟨socket, event, h⟩) hrun

/-- A page whose callbacks send no joins sends one when a socket opens, on the socket that it
then has. -/
theorem joins_of_run (hcall : ∀ callback t, page.NoJoin t (page.call callback t)) {job : Job}
    (hrun : page.run job s = some t) {socket : Nat} {join : JoinRoom}
    (hjoin : Command.send socket (.join join) ∈
      (page.client t).asked.drop (page.client s).asked.length) :
    (page.client s).grpc = some socket ∧ join = (page.client s).joinAction ∧
      ∃ socket', job = .opened socket' := by
  by_cases hjob : ∃ socket', job = .opened socket'
  · obtain ⟨socket', rfl⟩ := hjob
    obtain ⟨-, rfl⟩ := settle_eq_some.mp hrun
    simp only [page.client_modify, CollabClient.sendOn] at hjoin
    split at hjoin
    · simp [CollabClient.endTask] at hjoin
    · rename_i socket'' hgrpc
      simp only [CollabClient.endTask, List.drop_left, List.mem_singleton, Command.send.injEq,
        Action.join.injEq] at hjoin
      obtain ⟨rfl, rfl⟩ := hjoin
      exact ⟨hgrpc, rfl, socket', rfl⟩
  · obtain ⟨asked, heq, hasked⟩ := NoJoin.run hcall (fun socket' h => hjob ⟨socket', h⟩) hrun
    rw [heq, List.drop_left] at hjoin
    exact absurd (hasked _ hjoin) (by simp [Command.isJoin])

end Page

end MassRelay.Ts

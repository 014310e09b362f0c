import MassRelay.Ts.Phases

/-!
# MassRelay.Ts.Timers

The timers of an engine.

It has one for its updates and one for its cursor, each with the handle that it got last, and a mark
that says that the cursor waits. `Clock` is what it knows of them, and `step_ticked` how a move
ticks it (`ticks`).

Nothing is assumed of the provider. A handle that has run out may be given again, and then the
engine stops a timer by the handle of another. It may be null, or false, and `_clearTimers` passes
over that. And what `clearTimeout` stops is up to the provider, and may depend on all that it was
asked before. It is not asked for the same handle again before the next timer is set, unless at
once, so it may as well depend on how many were set. The timers are told apart by their numbers
(`Clock.Sound`), and the engine knows of a handle only whether it `stops` a timer.

The engine clears its timers when its client calls back that it is down or was sent away
(`clearsTimers`), and whenever the client goes down it calls back (`Timed.up`). So an engine that
says that it is connected has a client that is, in every state (`Lit`).
-/

namespace MassRelay.Ts

/-- What an engine knows of its timers. -/
structure Clock where
  timers : List (Nat × TimerCallback)
  set : Nat
  debounceTimer : Option Nat
  cursorTimer : Option Nat
  cursorPending : Bool

/-- What a move does to the timers. -/
inductive Tick
  | idle
  | cleared
  | localChange
  | cursorMove
  | fired (timer : Nat)

namespace Document

variable {doc : Document} {set timer : Nat} {handle : Option Nat}

/-- `_clearTimers` stops this timer by this handle. -/
def stops (doc : Document) (set : Nat) (handle : Option Nat) (timer : Nat) : Bool :=
  handle.any fun h => doc.truthy h && doc.cancels set h timer

/-- What `_clearTimers` leaves of a handle. -/
def kept (doc : Document) (handle : Option Nat) : Option Nat :=
  if handle.any doc.truthy then none else handle

@[simp] theorem any_kept : (doc.kept handle).any doc.truthy = false := by
  unfold kept
  split
  · rfl
  · rename_i hfalsy
    exact eq_false_of_ne_true hfalsy

@[simp] theorem stops_kept : doc.stops set (doc.kept handle) timer = false := by
  cases h : doc.kept handle with
  | none => rfl
  | some h' =>
    have hfalsy : (doc.kept handle).any doc.truthy = false := any_kept
    rw [h, Option.any_some] at hfalsy
    rw [stops, Option.any_some, hfalsy, Bool.false_and]

@[simp] theorem kept_kept : doc.kept (doc.kept handle) = doc.kept handle := by
  unfold kept
  cases h : handle.any doc.truthy with
  | false => simp [h]
  | true => simp

end Document

namespace Clock

variable {doc : Document} {c c' : Clock} {timer : Nat}

def clear (doc : Document) (c : Clock) : Clock :=
  { c with
    timers := c.timers.filter fun x =>
      !doc.stops c.set c.debounceTimer x.1 && !doc.stops c.set c.cursorTimer x.1
    debounceTimer := doc.kept c.debounceTimer
    cursorTimer := doc.kept c.cursorTimer }

/-- A timer was set for an update, and the last one stopped. -/
def debounce (doc : Document) (c : Clock) : Clock :=
  { c with
    timers := (c.timers.filter fun x => !c.debounceTimer.any (doc.cancels c.set · x.1)) ++
      [(c.set, .flushOutgoing)]
    set := c.set + 1
    debounceTimer := doc.handle c.set }

/-- A timer was set for the cursor, unless one was. -/
def throttle (doc : Document) (c : Clock) : Clock :=
  if c.cursorPending then c
  else { c with
    timers := c.timers ++ [(c.set, .sendCursor)]
    set := c.set + 1
    cursorTimer := doc.handle c.set
    cursorPending := true }

def fire (timer : Nat) (c : Clock) : Clock :=
  match c.timers.lookup timer with
  | none => c
  | some .flushOutgoing => { c with timers := c.timers.filter (·.1 ≠ timer) }
  | some .sendCursor =>
    { c with timers := c.timers.filter (·.1 ≠ timer), cursorPending := false }

def tick (doc : Document) (c : Clock) : Tick → Clock
  | .idle => c
  | .cleared => c.clear doc
  | .localChange => c.debounce doc
  | .cursorMove => c.throttle doc
  | .fired timer => c.fire timer

/-- The timers are numbered as they are set, and one at most is for the cursor. -/
structure Sound (c : Clock) : Prop where
  set : ∀ x ∈ c.timers, x.1 < c.set
  nodup : (c.timers.map Prod.fst).Nodup
  pending : ∀ n, (n, .sendCursor) ∈ c.timers → c.cursorPending = true
  single : ∀ n n', (n, .sendCursor) ∈ c.timers → (n', .sendCursor) ∈ c.timers → n = n'

/-- There is a timer for this. -/
def Has (c : Clock) (callback : TimerCallback) : Prop := ∃ timer, (timer, callback) ∈ c.timers

theorem mem_clear {x : Nat × TimerCallback} : x ∈ (c.clear doc).timers ↔ x ∈ c.timers ∧
    doc.stops c.set c.debounceTimer x.1 = false ∧ doc.stops c.set c.cursorTimer x.1 = false := by
  rw [clear, List.mem_filter, Bool.and_eq_true, Bool.not_eq_true', Bool.not_eq_true']

theorem mem_debounce {x : Nat × TimerCallback} : x ∈ (c.debounce doc).timers ↔
    x ∈ c.timers ∧ c.debounceTimer.any (doc.cancels c.set · x.1) = false ∨
      x = (c.set, .flushOutgoing) := by
  rw [debounce, List.mem_append, List.mem_filter, List.mem_singleton, Bool.not_eq_true']

theorem mem_of_lookup {callback : TimerCallback}
    (h : c.timers.lookup timer = some callback) : (timer, callback) ∈ c.timers := by
  obtain ⟨before, after, heq, -⟩ := List.lookup_eq_some_iff.mp h
  simp [heq]

theorem mem_fire {x : Nat × TimerCallback} :
    x ∈ (c.fire timer).timers ↔ x ∈ c.timers ∧ x.1 ≠ timer := by
  unfold fire
  split
  · rename_i hnone
    refine ⟨fun hx => ⟨hx, fun heq => ?_⟩, And.left⟩
    simpa [heq] using List.lookup_eq_none_iff.mp hnone x hx
  · rw [List.mem_filter, decide_eq_true_eq]
  · rw [List.mem_filter, decide_eq_true_eq]

/-- Timers are not cleared twice. -/
theorem clear_clear : (c.clear doc).clear doc = c.clear doc := by
  simp [clear]

/-! ### What a tick keeps -/

/-- A clock with fewer timers. -/
theorem Sound.fewer (h : Sound c) (hset : c'.set = c.set) (hsub : c'.timers.Sublist c.timers)
    (hpending : ∀ n, (n, .sendCursor) ∈ c'.timers → c'.cursorPending = c.cursorPending) :
    Sound c' where
  set x hx := hset ▸ h.set x (hsub.subset hx)
  nodup := h.nodup.sublist (hsub.map _)
  pending n hn := (hpending n hn).trans (h.pending n (hsub.subset hn))
  single n n' hn hn' := h.single n n' (hsub.subset hn) (hsub.subset hn')

theorem Sound.clear (h : Sound c) : Sound (c.clear doc) :=
  h.fewer rfl List.filter_sublist fun _ _ => rfl

/-- The number of a new timer is new. -/
theorem Sound.numbered (h : Sound c) (callback : TimerCallback) :
    (∀ x ∈ c.timers ++ [(c.set, callback)], x.1 < c.set + 1) ∧
      ((c.timers ++ [(c.set, callback)]).map Prod.fst).Nodup := by
  constructor
  · intro x hx
    obtain hx | hx := List.mem_append.mp hx
    · exact Nat.lt_succ_of_lt (h.set x hx)
    · rw [List.mem_singleton.mp hx]
      exact Nat.lt_succ_self _
  · rw [List.map_append, List.map_singleton, List.nodup_append_comm, List.singleton_append,
      List.nodup_cons]
    refine ⟨fun hmem => ?_, h.nodup⟩
    obtain ⟨x, hx, heq⟩ := List.mem_map.mp hmem
    exact absurd heq (h.set x hx).ne

theorem Sound.debounced (h : Sound c) : Sound (c.debounce doc) := by
  have hleft : Sound { c with
      timers := c.timers.filter fun x => !c.debounceTimer.any (doc.cancels c.set · x.1) } :=
    h.fewer rfl List.filter_sublist fun _ _ => rfl
  have hmem : ∀ n, (n, .sendCursor) ∈ (c.debounce doc).timers → (n, .sendCursor) ∈ c.timers :=
    fun n hn => ((mem_debounce.mp hn).resolve_right (by simp)).1
  obtain ⟨hset, hnodup⟩ := hleft.numbered .flushOutgoing
  exact ⟨hset, hnodup, fun n hn => h.pending n (hmem n hn),
    fun n n' hn hn' => h.single n n' (hmem n hn) (hmem n' hn')⟩

theorem Sound.throttled (h : Sound c) : Sound (c.throttle doc) := by
  unfold throttle
  split
  · exact h
  · rename_i hidle
    have hnew : ∀ n, (n, .sendCursor) ∈ c.timers ++ [(c.set, .sendCursor)] → n = c.set := by
      intro n hn
      obtain hn | hn := List.mem_append.mp hn
      · exact absurd (h.pending n hn) hidle
      · exact (Prod.mk.inj (List.mem_singleton.mp hn)).1
    obtain ⟨hset, hnodup⟩ := h.numbered .sendCursor
    exact ⟨hset, hnodup, fun _ _ => rfl,
      fun n n' hn hn' => (hnew n hn).trans (hnew n' hn').symm⟩

/-- Two timers with one number are the same. -/
theorem Sound.unique (h : Sound c) {callback callback' : TimerCallback}
    (hmem : (timer, callback) ∈ c.timers) (hmem' : (timer, callback') ∈ c.timers) :
    callback = callback' :=
  (Prod.mk.inj (List.inj_on_of_nodup_map h.nodup hmem hmem' rfl)).2

theorem Sound.lookup_eq_some (h : Sound c) {callback : TimerCallback} :
    c.timers.lookup timer = some callback ↔ (timer, callback) ∈ c.timers := by
  refine ⟨mem_of_lookup, fun hmem => ?_⟩
  cases hlookup : c.timers.lookup timer with
  | none =>
    have := List.lookup_eq_none_iff.mp hlookup _ hmem
    simp at this
  | some callback' => rw [h.unique hmem (mem_of_lookup hlookup)]

theorem Sound.fire (h : Sound c) (timer : Nat) : Sound (c.fire timer) := by
  unfold Clock.fire
  split
  · exact h
  · exact h.fewer rfl List.filter_sublist fun _ _ => rfl
  · rename_i hlookup
    refine h.fewer rfl List.filter_sublist fun n hn => ?_
    -- it was the only timer of the cursor
    obtain ⟨hmem, hne⟩ := List.mem_filter.mp hn
    exact absurd (h.single n timer hmem (mem_of_lookup hlookup)) (of_decide_eq_true hne)

theorem Sound.tick (h : Sound c) (t : Tick) : Sound (c.tick doc t) := by
  cases t with
  | idle => exact h
  | cleared => exact h.clear
  | localChange => exact h.debounced
  | cursorMove => exact h.throttled
  | fired timer => exact h.fire timer

end Clock

/-- The callbacks that clear the timers of the engine. -/
def Callback.clears : Callback → Bool
  | .onDisconnect | .onCredentialsChanged _ | .onSessionEnded _ => true
  | _ => false

namespace CollabClient

/-- The client does not try again. -/
def spent (c : CollabClient) : Bool := decide (c.retryCount ≥ c.maxRetries)

/-- The client tells on this event that it is down, or that it was sent away. -/
def goesAway (c : CollabClient) : Event → Bool
  | .credentialsChanged _ => true
  | .sessionEnded reason =>
    !((reason = "slow_consumer" || (reason = "token_expired" && c.options.getToken)) &&
      c.reconnectEnabled) || c.isConnected || c.spent
  | .error err => !c.isConnected && err.code = "ROOM_NOT_FOUND" && c.hasJoined
  | _ => false

/-- The same when its socket closes. -/
def goesAwayClosed (c : CollabClient) : Bool :=
  c.isConnected || (!c.explicitDisconnect && c.hasJoined && c.reconnectEnabled && c.spent)

end CollabClient

namespace CollabEngine

variable {doc : Document} {e e' e'' : CollabEngine} {b b' : Bool}

def clock (e : CollabEngine) : Clock where
  timers := e.timers
  set := e.set
  debounceTimer := e.debounceTimer
  cursorTimer := e.cursorTimer
  cursorPending := e.cursorPending

/-- The move makes the engine clear its timers. -/
def clearsTimers (e : CollabEngine) : EngineMove → Bool
  | .call .disconnect => e.client.isConnected && e.client.grpc.isSome
  | .call .dispose => true
  | .job (.message _ event) => e.client.goesAway event.event
  | .job (.closed socket) => decide (e.client.grpc = some socket) && e.client.goesAwayClosed
  | .job job => e.client.gaveUp job
  | _ => false

/-- The application tells of a local change. -/
def notifies (_ : CollabEngine) : EngineMove → Bool
  | .call .notifyLocalChange => true
  | _ => false

def ticks (e : CollabEngine) : EngineMove → Tick
  | .call .notifyLocalChange => .localChange
  | .call .notifyCursorMove =>
    if e.adapter.isNone || e.state.phase ≠ .connected then .idle else .cursorMove
  | .fired timer => .fired timer
  | m => if e.clearsTimers m then .cleared else .idle

/-- An engine that says that it is connected has a client that is. -/
def Lit (e : CollabEngine) : Prop := e.state.phase = .connected → e.client.isConnected = true

/-- The timers were cleared, if `b`, and nothing else was done to them. -/
structure Timed (doc : Document) (b : Bool) (e e' : CollabEngine) : Prop where
  clock : e'.clock = if b then e.clock.clear doc else e.clock
  up : e.client.isConnected = true → e'.client.isConnected = true ∨ b = true
  lit : Lit e → Lit e'

theorem clearDebounce_clock : (e.clearDebounce doc).clock = { e.clock with
    timers := e.timers.filter fun x => !doc.stops e.set e.debounceTimer x.1
    debounceTimer := doc.kept e.debounceTimer } := by
  unfold clearDebounce Document.stops Document.kept
  cases h : e.debounceTimer with
  | none => simp [clock, h]
  | some handle =>
    dsimp only [Option.any_some]
    split
    · rename_i htruthy
      simp [clock, clearTimeout, htruthy]
    · rename_i hfalsy
      simp [clock, h, hfalsy]

theorem clearCursor_clock : (e.clearCursor doc).clock = { e.clock with
    timers := e.timers.filter fun x => !doc.stops e.set e.cursorTimer x.1
    cursorTimer := doc.kept e.cursorTimer } := by
  unfold clearCursor Document.stops Document.kept
  cases h : e.cursorTimer with
  | none => simp [clock, h]
  | some handle =>
    dsimp only [Option.any_some]
    split
    · rename_i htruthy
      simp [clock, clearTimeout, htruthy]
    · rename_i hfalsy
      simp [clock, h, hfalsy]

theorem clearTimers_clock : (e.clearTimers doc).clock = e.clock.clear doc := by
  have htimers : (e.clearDebounce doc).timers =
      e.timers.filter fun x => !doc.stops e.set e.debounceTimer x.1 :=
    congrArg Clock.timers clearDebounce_clock
  have hset : (e.clearDebounce doc).set = e.set := congrArg Clock.set clearDebounce_clock
  have hhandle : (e.clearDebounce doc).cursorTimer = e.cursorTimer :=
    congrArg Clock.cursorTimer clearDebounce_clock
  change ((e.clearDebounce doc).clearCursor doc).clock = _
  rw [clearCursor_clock, clearDebounce_clock, htimers, hset, hhandle, List.filter_filter]
  simp [Clock.clear, clock, Bool.and_comm]

theorem disconnect_eq (doc : Document) (e : CollabEngine) : e.disconnect doc =
    if e.client.grpc = none then { e with client := e.client.stop }
    else if e.client.isConnected then ({ e with client := e.client.stop.hangUp }).resetState doc
    else { e with client := e.client.stop.hangUp } := by
  have hgrpc : e.client.stop.grpc = e.client.grpc := by
    rw [CollabClient.stop_eq]
    exact CollabClient.clearRetry_grpc
  have hup : e.client.stop.isConnected = e.client.isConnected := by
    rw [CollabClient.stop_eq]
    exact CollabClient.clearRetry_isConnected
  rw [← hgrpc, ← hup]
  rfl

namespace Timed

theorem of_eq (hclock : e'.clock = e.clock) (hclient : e'.client.isConnected = e.client.isConnected)
    (hphase : e'.state.phase = .connected → e.state.phase = .connected) : Timed doc false e e' where
  clock := hclock
  up hup := Or.inl (hclient.trans hup)
  lit h hphase' := hclient.trans (h (hphase hphase'))

theorem refl (e : CollabEngine) : Timed doc false e e := of_eq rfl rfl id

theorem trans (h : Timed doc b e e') (h' : Timed doc b' e' e'') : Timed doc (b || b') e e'' where
  clock := by
    rw [h'.clock, h.clock]
    cases b with
    | false => rfl
    | true =>
      cases b' with
      | false => rfl
      | true => exact Clock.clear_clear
  up hup := by
    obtain hup | rfl := h.up hup
    · exact (h'.up hup).imp_right fun hb => by rw [hb, Bool.or_true]
    · exact Or.inr (Bool.true_or _)
  lit hlit := h'.lit (h.lit hlit)

theorem andThen (h : Timed doc b e e') (h' : Timed doc false e' e'') : Timed doc b e e'' :=
  Bool.or_false b ▸ h.trans h'

theorem after (h : Timed doc false e e') (h' : Timed doc b e' e'') : Timed doc b e e'' :=
  Bool.false_or b ▸ h.trans h'

theorem modify {f : CollabClient → CollabClient}
    (hf : (f e.client).isConnected = e.client.isConnected) :
    Timed doc false e ((page doc).modify f e) := of_eq rfl hf id

theorem synced (h : Synced e e') : Timed doc false e e' :=
  of_eq (h.field CollabEngine.clock fun _ _ _ _ _ => rfl) h.client.isConnected (h.phase ▸ id)

theorem triggerSceneInit (h : e.triggerSceneInit = some e') : Timed doc false e e' := by
  obtain rfl | ⟨e₁, hsend, rfl⟩ := triggerSceneInit_cases h
  · exact of_eq rfl rfl id
  · exact (synced (.send (by simp) hsend)).andThen (of_eq rfl rfl id)

theorem onEvent (event : CollabEvent) : Timed doc false e (e.onEvent doc event) := by
  unfold CollabEngine.onEvent
  split
  · rename_i rj _
    have henter : Timed doc false e (e.enterRoom rj) := of_eq rfl rfl id
    dsimp only
    split
    · split
      · exact henter
      · rename_i e₁ htrigger
        exact henter.after ((triggerSceneInit htrigger).after (synced (.handleSyncEvent event)))
    · exact henter.after (synced (.handleSyncEvent event))
  · exact synced (.handleSyncEvent event)

theorem resetState : Timed doc true e (e.resetState doc) where
  clock := clearTimers_clock
  up _ := Or.inr rfl
  lit _ hphase := absurd hphase (by simp)

/-- Every callback but the one that says that the client is connected. -/
theorem call (callback : Callback) (hconnect : ∀ id, callback ≠ .onConnect id) :
    Timed doc callback.clears e (e.call doc callback) := by
  cases callback with
  | onConnect id => exact absurd rfl (hconnect id)
  | onEvent event => exact onEvent event
  | onPeerJoined peer =>
    unfold CollabEngine.call
    dsimp only
    split
    · exact refl e
    · exact of_eq rfl rfl id
  | onPeerLeft clientId =>
    unfold CollabEngine.call
    dsimp only
    split
    · exact of_eq rfl rfl id
    · exact of_eq rfl rfl id
  | onErrorEvent code message =>
    unfold CollabEngine.call
    dsimp only
    split
    · exact refl e
    · exact of_eq rfl rfl (by simp [updateState])
  | onDisconnect => exact resetState
  | onCredentialsChanged | onSessionEnded => exact resetState.andThen (of_eq rfl rfl id)
  | onError | onTitleChanged | onOwnerChanged | onAppMessage | onReconnecting =>
    exact of_eq rfl rfl id

/-- A client that goes down calls back, if it was up. -/
theorem reset {f : CollabClient → CollabClient} (hf : (f e.client).isConnected = false) :
    Timed doc e.client.isConnected e (if e.client.isConnected then
      ((page doc).modify f e).call doc .onDisconnect else (page doc).modify f e) := by
  cases hup : e.client.isConnected with
  | true =>
    have hreset : Timed doc true ((page doc).modify f e)
        (((page doc).modify f e).call doc .onDisconnect) := resetState
    exact ⟨hreset.clock, fun _ => Or.inr rfl,
      fun _ hphase => absurd hphase (by simp [CollabEngine.call])⟩
  | false => exact of_eq rfl (hf.trans hup.symm) id

theorem endSession (reason : String) : Timed doc true e ((page doc).endSession reason e) :=
  (modify rfl).after (call (.onSessionEnded reason) (by simp))

theorem scheduleReconnect :
    Timed doc e.client.spent e ((page doc).scheduleReconnect e) := by
  unfold Page.scheduleReconnect
  split
  · rename_i hretries
    have hspent : e.client.spent = true := decide_eq_true hretries
    exact hspent ▸ endSession _
  · rename_i hretries
    have hspent : e.client.spent = false := decide_eq_false hretries
    exact hspent ▸ of_eq rfl rfl id

theorem closeFromRelay : Timed doc e.client.isConnected e ((page doc).closeFromRelay e) :=
  reset (by simp [CollabClient.resetState])

theorem dropAndReconnect : Timed doc (e.client.isConnected || e.client.spent) e
    ((page doc).dropAndReconnect e) := by
  have hreset : Timed doc e.client.isConnected e (if e.client.isConnected then
      ((page doc).modify (fun c => c.resetState.close e.client.grpc) e).call doc .onDisconnect
      else (page doc).modify (fun c => c.resetState.close e.client.grpc) e) :=
    reset (by simp [CollabClient.resetState])
  refine hreset.trans ?_
  have hspent : (if e.client.isConnected then
      ((page doc).modify (fun c => c.resetState.close e.client.grpc) e).call doc .onDisconnect
      else (page doc).modify (fun c => c.resetState.close e.client.grpc) e).client.spent =
        e.client.spent := by
    split <;>
      simp [CollabEngine.call, Page.modify, page, CollabClient.spent, CollabClient.resetState]
  exact hspent ▸ scheduleReconnect

theorem addPeer (peer : PeerInfoJson) : Timed doc false e ((page doc).addPeer peer e) := by
  refine (modify ?_).after (call (.onPeerJoined peer) (by simp))
  unfold CollabClient.setPeer
  split <;> rfl

theorem closeFromRelay_hasJoined :
    ((page doc).closeFromRelay e).client.hasJoined = e.client.hasJoined := by
  have hclose : (({ e.client with explicitDisconnect := true }.resetState.close
      e.client.grpc)).hasJoined = e.client.hasJoined := by simp [CollabClient.resetState]
  unfold Page.closeFromRelay
  dsimp only
  split
  · exact (call_client _).hasJoined.trans hclose
  · exact hclose

theorem handleError (err : ErrorEvent) :
    Timed doc (e.client.goesAway (.error err)) e ((page doc).handleError err e) := by
  have hrest : ∀ e₁ : CollabEngine, Timed doc false e e₁ → e.client.Sends e₁.client →
      Timed doc (e.client.goesAway (.error err)) e (if e₁.client.isConnected then e₁
        else if err.code = "ROOM_NOT_FOUND" && ((page doc).closeFromRelay e₁).client.hasJoined then
          ((page doc).closeFromRelay e₁).call doc (.onSessionEnded "session_gone")
        else (page doc).closeFromRelay e₁) := by
    intro e₁ herror hclient
    rw [← hclient.field (CollabClient.goesAway · (.error err)) fun _ => rfl, CollabClient.goesAway,
      closeFromRelay_hasJoined]
    cases hup : e₁.client.isConnected with
    | true => exact herror
    | false =>
      have hclose : Timed doc false e ((page doc).closeFromRelay e₁) :=
        herror.after (hup ▸ closeFromRelay)
      rw [if_neg Bool.false_ne_true, Bool.not_false, Bool.true_and]
      split
      · rename_i hgone
        exact hgone ▸ hclose.after (call (.onSessionEnded "session_gone") (by simp))
      · rename_i hgone
        exact eq_false_of_ne_true hgone ▸ hclose
  exact hrest _ (call (.onErrorEvent err.code err.message) (by simp)) (call_client _)

theorem handleSessionEnded (reason : String) :
    Timed doc (e.client.goesAway (.sessionEnded reason)) e
      ((page doc).handleSessionEnded reason e) := by
  unfold Page.handleSessionEnded
  change Timed doc (!((page doc).reconnectable reason e && e.client.reconnectEnabled) ||
    e.client.isConnected || e.client.spent) e _
  split
  · rename_i hback
    change ((page doc).reconnectable reason e && e.client.reconnectEnabled) = true at hback
    rw [hback]
    exact dropAndReconnect
  · rename_i hgone
    change ¬ ((page doc).reconnectable reason e && e.client.reconnectEnabled) = true at hgone
    rw [eq_false_of_ne_true hgone]
    have hend : Timed doc (e.client.isConnected || true) e
        (((page doc).closeFromRelay e).call doc (.onSessionEnded reason)) :=
      closeFromRelay.trans (call (.onSessionEnded reason) (by simp))
    rwa [Bool.or_true] at hend

theorem handleRoomJoined (rj : RoomJoined) :
    Timed doc false e ((page doc).handleRoomJoined rj e) := by
  obtain ⟨_, _, _, hup, heq⟩ := handleRoomJoined_eq doc e rj
  rw [heq]
  exact ⟨rfl, fun _ => Or.inl hup, fun _ _ => hup⟩

theorem handleEvent (event : CollabEvent) :
    Timed doc (e.client.goesAway event.event) e ((page doc).handleEvent event e) := by
  have hevent : Timed doc false e (e.call doc (.onEvent event)) := call (.onEvent event) (by simp)
  have hclient : e.client.Sends (e.call doc (.onEvent event)).client := call_client _
  unfold Page.handleEvent
  dsimp only
  have haway : e.client.goesAway = (e.call doc (.onEvent event)).client.goesAway :=
    (hclient.field CollabClient.goesAway fun _ => rfl).symm
  rw [haway]
  cases hkind : event.event with
  | error err => exact hevent.after (handleError err)
  | roomJoined rj => exact hevent.after (handleRoomJoined rj)
  | peerJoined peer => exact hevent.after (addPeer _)
  | peerLeft left => exact (hevent.andThen (modify rfl)).after (call (.onPeerLeft _) (by simp))
  | sessionEnded reason => exact hevent.after (handleSessionEnded reason)
  | ownerChanged newOwnerId =>
    exact (hevent.andThen (modify rfl)).after (call (.onOwnerChanged _) (by simp))
  | credentialsChanged cc => exact hevent.after (call (.onCredentialsChanged _) (by simp))
  | titleChanged tc =>
      exact (hevent.andThen (modify rfl)).after (call (.onTitleChanged _) (by simp))
  | appMessage msg =>
    have happ : ∀ id, Callback.onAppMessage msg.kind msg.payload event.fromClientId
        (msg.toClientIds.head?.getD "") ≠ .onConnect id := by simp
    exact hevent.after (call _ happ)
  | presence | sceneUpdate | cursorUpdate | textUpdate | sceneInitResponse | sceneInitRequest =>
    exact hevent

theorem receive (event : CollabEvent) :
    Timed doc (e.client.goesAway event.event) e (e.receive doc event) := by
  unfold CollabEngine.receive
  split
  · rename_i hthrows
    obtain ⟨eventId, fromClientId, kind⟩ := event
    cases kind with
    | roomJoined rj =>
      have hquiet : e.client.goesAway (.roomJoined rj) = false := rfl
      exact hquiet ▸ call (.onEvent _) (by simp)
    | _ => simp [throws] at hthrows
  · exact (handleEvent event).andThen (of_eq rfl rfl id)

theorem handleConnectionClosed :
    Timed doc e.client.goesAwayClosed e ((page doc).handleConnectionClosed e) := by
  have hrest : ∀ e₁ : CollabEngine, Timed doc e.client.isConnected e e₁ →
      e.client.resetState.Sends e₁.client → Timed doc e.client.goesAwayClosed e
        (if !e₁.client.explicitDisconnect && e₁.client.hasJoined && e₁.client.reconnectEnabled then
          (page doc).scheduleReconnect e₁ else e₁) := by
    intro e₁ hreset hclient
    have haway : e.client.goesAwayClosed = (e.client.isConnected ||
        (!e₁.client.explicitDisconnect && e₁.client.hasJoined && e₁.client.reconnectEnabled &&
          e₁.client.spent)) := by
      obtain ⟨asked, heq, -⟩ := hclient
      rw [heq]
      rfl
    rw [haway]
    split
    · rename_i hretry
      rw [hretry, Bool.true_and]
      exact hreset.trans scheduleReconnect
    · rename_i hstay
      rw [eq_false_of_ne_true hstay, Bool.false_and, Bool.or_false]
      exact hreset
  refine hrest
    (if e.client.isConnected then ((page doc).modify .resetState e).call doc .onDisconnect
    else (page doc).modify .resetState e) (reset rfl) ?_
  split
  · exact call_client (e := (page doc).modify .resetState e) _
  · exact .refl _

theorem roomChecked (fetch : Nat) (status : Option Nat) :
    Timed doc (e.client.gaveUp (.checked fetch status)) e ((page doc).roomChecked status e) := by
  unfold Page.roomChecked CollabClient.gaveUp
  change Timed doc (!e.client.explicitDisconnect &&
    (status = some 404 || (status ≠ some 200 && e.client.spent))) e (if e.client.explicitDisconnect
      then e else _)
  cases e.client.explicitDisconnect with
  | true => exact refl e
  | false =>
    rw [if_neg Bool.false_ne_true, Bool.not_false, Bool.true_and]
    split
    · rename_i hgone
      rw [decide_eq_true hgone, Bool.true_or]
      exact endSession _
    · rename_i hgone
      rw [decide_eq_false hgone, Bool.false_or]
      split
      · rename_i hfound
        rw [decide_eq_false (not_not.mpr hfound), Bool.false_and]
        exact modify CollabClient.openWithToken_isConnected
      · rename_i hfound
        rw [decide_eq_true hfound, Bool.true_and]
        exact scheduleReconnect

theorem getTokenFailed (request : Nat) (message : String) :
    Timed doc (e.client.gaveUp (.tokenFailed request message)) e
      ((page doc).getTokenFailed message e) := by
  have herror : Timed doc false e (e.call doc (.onError message)) :=
      call (.onError message) (by simp)
  unfold Page.getTokenFailed CollabClient.gaveUp
  change Timed doc (!e.client.explicitDisconnect && e.client.hasJoined && e.client.spent) e
    (if e.client.explicitDisconnect then e.call doc (.onError message) else
      if e.client.hasJoined then (page doc).scheduleReconnect
        (e.call doc (.onError message)) else _)
  cases e.client.explicitDisconnect with
  | true => exact herror
  | false =>
    rw [if_neg Bool.false_ne_true, Bool.not_false, Bool.true_and]
    cases e.client.hasJoined with
    | true =>
      rw [if_pos rfl, Bool.true_and]
      exact herror.after (scheduleReconnect (e := e.call doc (.onError message)))
    | false =>
      rw [if_neg Bool.false_ne_true, Bool.false_and]
      exact herror.andThen (modify rfl)

theorem disconnect :
    Timed doc (e.client.isConnected && e.client.grpc.isSome) e (e.disconnect doc) := by
  have hdown : Timed doc e.client.isConnected e (if e.client.isConnected then
      ((page doc).modify (·.stop.hangUp) e).call doc .onDisconnect
      else (page doc).modify (·.stop.hangUp) e) := reset CollabClient.hangUp_isConnected
  rw [disconnect_eq]
  split
  · rename_i hgrpc
    rw [hgrpc, Option.isSome_none, Bool.and_false]
    refine of_eq rfl ?_ id
    simp [CollabClient.stop_eq]
  · rename_i hgrpc
    rw [Option.isSome_iff_ne_none.mpr hgrpc, Bool.and_true]
    exact hdown

theorem run {job : Job} (hrun : e.run doc job = some e') :
    Timed doc (e.clearsTimers (.job job)) e e' := by
  have hend : ∀ task, Timed doc false e ((page doc).modify (.endTask task) e) := fun _ => modify rfl
  cases job with
  | message socket event =>
    obtain ⟨-, heq⟩ := Option.ite_none_right_eq_some.mp hrun
    exact Option.some.inj heq ▸ receive event
  | opened socket =>
    obtain ⟨-, rfl⟩ := Page.settle_eq_some.mp hrun
    exact (hend _).andThen (modify CollabClient.sendOn_isConnected)
  | refused socket =>
    obtain ⟨-, rfl⟩ := Page.settle_eq_some.mp hrun
    exact hend _
  | closed socket =>
    obtain ⟨-, heq⟩ := Option.ite_none_right_eq_some.mp hrun
    obtain rfl := Option.some.inj heq
    have herase : Timed doc false e ((page doc).modify
        (fun c => { c with sockets := c.sockets.erase socket }) e) := modify rfl
    -- whether the timers go depends on the socket, then on the state of the client
    change Timed doc (decide (e.client.grpc = some socket) && e.client.goesAwayClosed) e
      (if e.client.grpc = some socket then _ else _)
    split
    · rename_i hgrpc
      rw [decide_eq_true hgrpc, Bool.true_and]
      exact herase.after (handleConnectionClosed (e := (page doc).modify
        (fun c => { c with sockets := c.sockets.erase socket }) e))
    · rename_i hgrpc
      rw [decide_eq_false hgrpc, Bool.false_and]
      exact herase
  | failed socket message =>
    obtain ⟨-, heq⟩ := Option.ite_none_right_eq_some.mp hrun
    exact Option.some.inj heq ▸ call (.onError message) (by simp)
  | fired timer =>
    obtain ⟨-, rfl⟩ := Page.settle_eq_some.mp hrun
    exact (hend _).andThen (modify rfl)
  | checked fetch status =>
    obtain ⟨-, rfl⟩ := Page.settle_eq_some.mp hrun
    exact (hend _).after
      (roomChecked (e := (page doc).modify (.endTask (.roomCheck fetch)) e) fetch status)
  | gotToken request token =>
    obtain ⟨-, rfl⟩ := Page.settle_eq_some.mp hrun
    unfold Page.gotToken
    split
    · exact hend _
    · exact (hend _).andThen (modify rfl)
  | tokenFailed request message =>
    obtain ⟨-, rfl⟩ := Page.settle_eq_some.mp hrun
    exact (hend _).after
      (getTokenFailed (e := (page doc).modify (.endTask (.token request)) e) request message)

theorem dispose : Timed doc true e (e.dispose doc) := by
  have hclear : ∀ e : CollabEngine, Timed doc true e (e.clearTimers doc) := fun e =>
    ⟨clearTimers_clock, fun _ => Or.inr rfl, by simp [Lit]⟩
  have hmark : Timed doc false e { e with disposed := true } := of_eq rfl rfl id
  unfold CollabEngine.dispose
  dsimp only
  split
  · have hend := (hmark.after disconnect).trans
      (hclear (CollabEngine.disconnect doc { e with disposed := true }))
    rwa [Bool.or_true] at hend
  · exact hmark.after (hclear _)

/-- A call, unless it sets a timer. -/
theorem perform {call : EngineCall} (hchange : call ≠ .notifyLocalChange)
    (hmove : call ≠ .notifyCursorMove) :
    Timed doc (e.clearsTimers (.call call)) e (e.perform doc call) := by
  cases call with
  | connect params =>
    change Timed doc false e ((e.connect doc params).getD (e.wire params))
    have hwire : Timed doc false e (e.wire params) := of_eq rfl rfl (by simp [wire, updateState])
    unfold connect Page.connect
    split
    · exact hwire
    · rw [Option.getD_some]
      exact hwire.andThen (modify CollabClient.openWithToken_isConnected)
  | disconnect => exact disconnect
  | dispose => exact dispose
  | setAdapter adapter =>
    have hset : Timed doc false e { e with adapter } := of_eq rfl rfl id
    change Timed doc false e (e.setAdapter adapter)
    unfold setAdapter
    dsimp only
    split
    · cases htrigger : CollabEngine.triggerSceneInit { e with adapter } with
      | none => exact hset
      | some e₁ => exact hset.andThen (triggerSceneInit htrigger)
    · exact hset
  | setEncryptionKey key => exact of_eq rfl rfl id
  | notifyLocalChange => exact absurd rfl hchange
  | notifyCursorMove => exact absurd rfl hmove
  | notifyCredentialsChanged reason => exact synced (.trySend none (by simp))
  | notifyTitleChanged title => exact synced (.trySend none (by simp))

end Timed

/-- What a move does to the timers, and to a client that is up. -/
structure Ticked (doc : Document) (m : EngineMove) (e e' : CollabEngine) : Prop where
  clock : e'.clock = e.clock.tick doc (e.ticks m)
  up : e.client.isConnected = true → e'.client.isConnected = true ∨ e.clearsTimers m = true
  lit : Lit e → Lit e'

variable {m : EngineMove}

theorem ticks_of_notifies (h : e.notifies m = true) : e.ticks m = .localChange := by
  unfold notifies at h
  split at h
  · rfl
  · simp at h

theorem ticks_of_clears (h : e.clearsTimers m = true) : e.ticks m = .cleared := by
  unfold ticks
  split
  · simp [clearsTimers] at h
  · simp [clearsTimers] at h
  · simp [clearsTimers] at h
  · exact if_pos h

theorem ticks_of_not_clears (h : e.clearsTimers m = false) : e.ticks m ≠ .cleared := by
  unfold ticks
  split
  · simp
  · split <;> simp
  · simp
  · simp [h]

theorem Timed.ticked (h : Timed doc (e.clearsTimers m) e e')
    (hticks : e.ticks m = if e.clearsTimers m then .cleared else .idle) : Ticked doc m e e' where
  clock := by
    rw [h.clock, hticks]
    split <;> rfl
  up := h.up
  lit := h.lit

/-- A move that leaves the phase, and the connection of the client. -/
theorem ticked_of_eq (hclock : e'.clock = e.clock.tick doc (e.ticks m))
    (hclient : e'.client.isConnected = e.client.isConnected)
    (hphase : e'.state.phase = e.state.phase) :
    Ticked doc m e e' where
  clock := hclock
  up hup := Or.inl (hclient.trans hup)
  lit h hphase' := hclient.trans (h (hphase.symm.trans hphase'))

theorem ticked_notifyLocalChange :
    Ticked doc (.call .notifyLocalChange) e (e.notifyLocalChange doc) := by
  have hclock : (e.notifyLocalChange doc).clock = e.clock.debounce doc := by
    unfold notifyLocalChange Clock.debounce
    cases h : e.debounceTimer <;> simp [clock, setTimeout, clearTimeout, h]
  refine ticked_of_eq hclock ?_ ?_ <;>
  · unfold notifyLocalChange
    split <;> rfl

theorem ticked_notifyCursorMove :
    Ticked doc (.call .notifyCursorMove) e (e.notifyCursorMove doc) := by
  have hclock : (e.notifyCursorMove doc).clock =
      e.clock.tick doc (e.ticks (.call .notifyCursorMove)) := by
    change _ = e.clock.tick doc
      (if e.adapter.isNone || e.state.phase ≠ .connected then .idle else .cursorMove)
    unfold notifyCursorMove
    cases hoff : (e.adapter.isNone || decide (e.state.phase ≠ .connected)) with
    | true => rfl
    | false =>
      rw [Bool.false_or, if_neg Bool.false_ne_true]
      change _ = e.clock.throttle doc
      unfold Clock.throttle
      change _ = if e.cursorPending then e.clock else _
      split <;> rfl
  refine ticked_of_eq hclock ?_ ?_ <;>
  · unfold notifyCursorMove
    split <;> rfl

theorem ticked_fire {timer : Nat} (h : e.fire doc timer = some e') :
    Ticked doc (.fired timer) e e' := by
  obtain ⟨callback, hlookup, rfl⟩ := Option.map_eq_some_iff.mp h
  have hsynced : ∀ {e₁ e'}, e₁.clock = e.clock.fire timer → e₁.client = e.client →
      e₁.state = e.state → Synced e₁ e' → Ticked doc (.fired timer) e e' := by
    intro e₁ e' hclock hclient hstate hsynced
    refine ticked_of_eq ?_ ?_ ?_
    · exact (hsynced.field CollabEngine.clock fun _ _ _ _ _ => rfl).trans hclock
    · rw [hsynced.client.isConnected, hclient]
    · rw [hsynced.phase, hstate]
  have hfire : e.clock.fire timer = match callback with
      | .flushOutgoing => (e.expire timer).clock
      | .sendCursor => { e.expire timer with cursorPending := false }.clock := by
    unfold Clock.fire
    rw [show e.clock.timers.lookup timer = some callback from hlookup]
    cases callback <;> rfl
  cases callback with
  | flushOutgoing => exact hsynced hfire.symm rfl rfl .flushOutgoing
  | sendCursor => exact hsynced hfire.symm rfl rfl .sendCursor

theorem step_ticked (h : e.step doc m = some e') : Ticked doc m e e' := by
  cases m with
  | call call =>
    obtain rfl := Option.some.inj h
    by_cases hchange : call = .notifyLocalChange
    · subst hchange
      exact ticked_notifyLocalChange
    · by_cases hmove : call = .notifyCursorMove
      · subst hmove
        exact ticked_notifyCursorMove
      · refine (Timed.perform hchange hmove).ticked ?_
        unfold ticks
        split <;> simp_all
  | job job => exact (Timed.run h).ticked rfl
  | fired timer => exact ticked_fire h
  | settled n value => exact Timed.ticked (Timed.synced (Synced.settle h)) rfl

/-- `_clearTimers` stops this timer. -/
def Clears (doc : Document) (e : CollabEngine) (timer : Nat) : Prop :=
  doc.stops e.set e.debounceTimer timer = true ∨ doc.stops e.set e.cursorTimer timer = true

instance (doc : Document) (e : CollabEngine) (timer : Nat) : Decidable (Clears doc e timer) := by
  unfold Clears
  infer_instance

/-- In every state the timers are sound, and a connected engine has a client that is. -/
structure Timely (e : CollabEngine) : Prop where
  sound : e.clock.Sound
  lit : Lit e

theorem Timely.step (h : Timely e) (hstep : e.step doc m = some e') : Timely e' where
  sound := (step_ticked hstep).clock ▸ h.sound.tick _
  lit := (step_ticked hstep).lit h.lit

theorem timely_start (options : CollabClientOptions) (maxRetries : Nat) (adapter : Option Nat) :
    Timely (start options maxRetries adapter) := by
  refine ⟨⟨?_, ?_, ?_, ?_⟩, ?_⟩ <;> simp [start, clock, Lit]

end CollabEngine

end MassRelay.Ts

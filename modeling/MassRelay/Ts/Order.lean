import MassRelay.Ts.Network
import MassRelay.Ts.Effects

/-!
# MassRelay.Ts.Order

The order of updates, with a key and without.

The asynchronous calls of an engine are numbered as they start: a flush when it computes its
update, a sync event when it arrives. Without a key they end at once. With one, each goes on
whenever its promise settles, so they end in the order of their numbers exactly when every promise
that lets a call end settles in turn (`InTurn`).
-/

namespace MassRelay.Ts

/-- The updates that an engine sends, and those that it applies. -/
inductive Direction
  | outgoing
  | incoming
  deriving DecidableEq

def Effect.direction : Effect → Option Direction
  | .send (.sceneUpdate _) | .send (.textUpdate _) => some .outgoing
  | .call _ (.applyRemote ..) | .call _ (.applySceneInit _) => some .incoming
  | _ => none

def Continuation.direction : Continuation → Option Direction
  | .outgoingScene .. | .outgoingText _ => some .outgoing
  | .scene .. | .text .. | .sceneInit _ => some .incoming
  | .snapshot => none

/-- The elements that the loop has yet to come to. -/
def Continuation.todo : Continuation → List ElementUpdate
  | .scene _ _ _ _ todo | .outgoingScene _ _ todo => todo
  | _ => []

def allPlain (elements : List ElementUpdate) : Bool := elements.all (·.data = "")

namespace CollabEngine

variable {doc : Document} {e e' : CollabEngine} {n adapter : Nat} {origin : Option Nat}
  {d : Direction}

/-- The numbers of the calls that sent or applied an update, in the order in which they did. -/
def numbers (d : Direction) (e : CollabEngine) : List Nat :=
  e.log.filterMap fun x => if x.2.direction = some d then x.1 else none

/-- Updates are sent in the order in which they were computed, and applied in the order in which
they arrived. -/
def InOrder (e : CollabEngine) : Prop := ∀ d, (e.numbers d).Pairwise (· < ·)

/-- Going on, the call sends or applies its update. -/
def Ends (e : CollabEngine) (k : Continuation) (d : Direction) : Prop :=
  k.direction = some d ∧ allPlain k.todo = true ∧ (d = .outgoing → e.CanSend)

instance (e : CollabEngine) (k : Continuation) (d : Direction) : Decidable (Ends e k d) := by
  unfold Ends
  infer_instance

/-- A promise that lets a call end resolves after those of the calls before it. -/
def InTurn (e : CollabEngine) : EngineMove → Prop
  | .settled n (some _) => ∀ k, e.pending.lookup n = some k → ∀ d, Ends e k d →
      ∀ j ∈ e.numbers d, j < n
  | _ => True

/-! ### What a call does -/

theorem numbers_log {log : List (Option Nat × Effect)} (h : e'.log = e.log ++ log) :
    e'.numbers d = e.numbers d ++
      log.filterMap fun x => if x.2.direction = some d then x.1 else none := by
  rw [numbers, h, List.filterMap_append, numbers]

theorem numbers_record (effect : Effect) : (e.record (some n) effect).numbers d =
    e.numbers d ++ if effect.direction = some d then [n] else [] := by
  rw [numbers_log (e := e) rfl]
  split <;> simp [*]

theorem numbers_record_of_none {effect : Effect} (h : effect.direction = none) :
    (e.record origin effect).numbers d = e.numbers d := by
  rw [numbers_log (e := e) rfl]
  simp [h]

theorem numbers_trySend (action : Action) : (e.trySend (some n) action).numbers d =
    e.numbers d ++ if (Effect.send action).direction = some d ∧ e.CanSend then [n] else [] := by
  by_cases h : e.CanSend
  · rw [trySend_of_canSend h, numbers_record]
    simp only [h, and_true]
    rfl
  · rw [trySend_of_not h, if_neg (fun h' => h h'.2), List.append_nil]

theorem numbers_trySend_of_none {action : Action} (h : (Effect.send action).direction = none) :
    (e.trySend origin action).numbers d = e.numbers d := by
  by_cases hsend : e.CanSend
  · rw [trySend_of_canSend hsend]
    exact numbers_record_of_none h
  · rw [trySend_of_not hsend]

theorem numbers_decryptScene (fromClientId : String) (done todo : List ElementUpdate) :
    (e.decryptScene n adapter fromClientId done todo).numbers d =
      e.numbers d ++
        if some Direction.incoming = some d ∧ allPlain todo = true then [n] else [] := by
  induction todo generalizing done with
  | nil =>
    refine (numbers_record _).trans (congrArg _ (if_congr ?_ rfl rfl))
    simp [Effect.direction, allPlain]
  | cons element todo ih =>
    unfold decryptScene
    split
    · rename_i hplain
      rw [ih]
      simp [allPlain, hplain]
    · rename_i hplain
      have hcut : (if e.encryptionKey.isSome then
          e.await n (.scene adapter fromClientId done element todo) else e).numbers d =
            e.numbers d := by
        split <;> rfl
      rw [hcut]
      simp [allPlain, hplain]

theorem numbers_encryptScene (done todo : List ElementUpdate) :
    (e.encryptScene n done todo).numbers d = e.numbers d ++
      if some Direction.outgoing = some d ∧ allPlain todo = true ∧ e.CanSend then [n] else [] := by
  induction todo generalizing done with
  | nil =>
    refine (numbers_trySend _).trans (congrArg _ (if_congr ?_ rfl rfl))
    simp [Effect.direction, allPlain]
  | cons element todo ih =>
    unfold encryptScene
    split
    · rename_i hplain
      rw [ih]
      simp [allPlain, hplain]
    · rename_i hplain
      have hcut : (if e.encryptionKey.isSome then e.await n (.outgoingScene done element todo)
          else e).numbers d = e.numbers d := by
        split <;> rfl
      rw [hcut]
      simp [allPlain, hplain]

/-- A call that goes on. -/
theorem numbers_resume (value : String) (k : Continuation) :
    (e.resume n value k).numbers d = e.numbers d ++ if Ends e k d then [n] else [] := by
  cases k with
  | scene adapter fromClientId done element todo =>
    refine (numbers_decryptScene _ _ _).trans (congrArg _ (if_congr ?_ rfl rfl))
    cases d <;> simp [Ends, Continuation.direction, Continuation.todo]
  | text adapter fromClientId update =>
    refine (numbers_record _).trans (congrArg _ (if_congr ?_ rfl rfl))
    cases d <;> simp [Ends, Continuation.direction, Continuation.todo, Effect.direction, allPlain]
  | sceneInit adapter =>
    have happlied : (e.applySceneInit n adapter value).numbers d = _ :=
      numbers_record (.call adapter (.applySceneInit value))
    refine happlied.trans (congrArg _ (if_congr ?_ rfl rfl))
    cases d <;> simp [Ends, Continuation.direction, Continuation.todo, Effect.direction, allPlain]
  | snapshot =>
    rw [if_neg (by simp [Ends, Continuation.direction]), List.append_nil]
    exact numbers_trySend_of_none rfl
  | outgoingScene done element todo =>
    refine (numbers_encryptScene _ _).trans (congrArg _ (if_congr ?_ rfl rfl))
    cases d <;> simp [Ends, Continuation.direction, Continuation.todo]
  | outgoingText update =>
    refine (numbers_trySend _).trans (congrArg _ (if_congr ?_ rfl rfl))
    cases d <;> simp [Ends, Continuation.direction, Continuation.todo, Effect.direction, allPlain]

/-- What the `n`-th call may do at a time: wait, if there is a key, and send or apply its update. -/
structure Turn (n : Nat) (e e' : CollabEngine) : Prop where
  log : Logs (fun x => ∀ j, x.1 = some j → j = n) e e'
  numbers : ∀ d, e'.numbers d = e.numbers d ∨ e'.numbers d = e.numbers d ++ [n]
  pending : ∀ x ∈ e'.pending, x ∈ e.pending ∨ x.1 = n ∧ e.encryptionKey.isSome = true
  started : e'.started = e.started
  encryptionKey : e'.encryptionKey = e.encryptionKey

/-- None of the calls does anything. -/
structure Still (e e' : CollabEngine) : Prop where
  log : Logs (fun x => x.1 = none) e e'
  pending : e'.pending = e.pending
  started : e'.started = e.started
  encryptionKey : e'.encryptionKey = e.encryptionKey

theorem Still.of_eq (hlog : e'.log = e.log) (hpending : e'.pending = e.pending)
    (hstarted : e'.started = e.started) (hkey : e'.encryptionKey = e.encryptionKey) : Still e e' :=
  ⟨.of_eq hlog, hpending, hstarted, hkey⟩

theorem Still.refl (e : CollabEngine) : Still e e := .of_eq rfl rfl rfl rfl

theorem Still.trans {e'' : CollabEngine} (h : Still e e') (h' : Still e' e'') : Still e e'' :=
  ⟨h.log.trans h'.log, h'.pending.trans h.pending, h'.started.trans h.started,
    h'.encryptionKey.trans h.encryptionKey⟩

theorem Still.numbers (h : Still e e') (d : Direction) : e'.numbers d = e.numbers d := by
  obtain ⟨log, heq, hlog⟩ := h.log
  rw [numbers_log heq, List.filterMap_eq_nil_iff.mpr, List.append_nil]
  intro x hx
  simp [hlog x hx]

theorem Still.turn (h : Still e e') : Turn n e e' where
  log := h.log.mono fun x hx j hj => by simp [hx] at hj
  numbers d := Or.inl (h.numbers d)
  pending _ hx := Or.inl (h.pending ▸ hx)
  started := h.started
  encryptionKey := h.encryptionKey

theorem Still.andThen {e'' : CollabEngine} (h : Still e e') (h' : Turn n e' e'') :
    Turn n e e'' where
  log := h.turn.log.trans h'.log
  numbers d := h.numbers d ▸ h'.numbers d
  pending x hx := by
    rw [← h.pending, ← h.encryptionKey]
    exact h'.pending x hx
  started := h'.started.trans h.started
  encryptionKey := h'.encryptionKey.trans h.encryptionKey

theorem Turn.andThen {e'' : CollabEngine} (h : Turn n e e') (h' : Still e' e'') : Turn n e e'' where
  log := h.log.trans h'.turn.log
  numbers d := by
    rw [h'.numbers d]
    exact h.numbers d
  pending x hx := h.pending x (h'.pending ▸ hx)
  started := h'.started.trans h.started
  encryptionKey := h'.encryptionKey.trans h.encryptionKey

theorem Quiet.still (h : Quiet e e') : Still e e' :=
  .of_eq h.log h.pending h.started h.encryptionKey

theorem Aside.still (h : Aside e e') : Still e e' where
  log := h.log.mono fun x hx => by
    obtain ⟨_, _, rfl⟩ := hx
    rfl
  pending := h.pending
  started := h.started
  encryptionKey := h.encryptionKey

theorem still_record (effect : Effect) : Still e (e.record none effect) :=
  ⟨⟨[(none, effect)], rfl, by simp⟩, rfl, rfl, rfl⟩

theorem still_send {action : Action} (h : e.send none action = some e') : Still e e' := by
  obtain ⟨-, -, rfl⟩ := send_eq_some.mp h
  have hclient : Still e { e with client := e.client.sendOn action } := .of_eq rfl rfl rfl rfl
  exact hclient.trans (still_record _)

theorem still_trySend (action : Action) : Still e (e.trySend none action) := by
  unfold trySend
  cases h : e.send none action with
  | none => exact .refl e
  | some e' => exact still_send h

theorem turn_record (effect : Effect) : Turn n e (e.record (some n) effect) where
  log := ⟨[(some n, effect)], rfl, fun x hx j hj => by
    rw [List.mem_singleton.mp hx] at hj
    exact (Option.some.inj hj).symm⟩
  numbers d := by
    rw [numbers_record]
    split
    · exact Or.inr rfl
    · exact Or.inl (List.append_nil _)
  pending _ hx := Or.inl hx
  started := rfl
  encryptionKey := rfl

/-- The call does something first that does not count. -/
theorem Turn.after {effect : Effect} (h : effect.direction = none)
    (hturn : Turn n (e.record (some n) effect) e') : Turn n e e' where
  log := (turn_record effect).log.trans hturn.log
  numbers d := by
    have hlog : (e.record (some n) effect).numbers d = e.numbers d := numbers_record_of_none h
    rw [← hlog]
    exact hturn.numbers d
  pending := hturn.pending
  started := hturn.started
  encryptionKey := hturn.encryptionKey

theorem turn_trySend (action : Action) : Turn n e (e.trySend (some n) action) := by
  by_cases hsend : e.CanSend
  · have hclient : Still e { e with client := e.client.sendOn action } := .of_eq rfl rfl rfl rfl
    rw [trySend_of_canSend hsend]
    exact hclient.andThen (turn_record _)
  · rw [trySend_of_not hsend]
    exact (Still.refl e).turn

theorem turn_await (hkey : e.encryptionKey.isSome = true) (k : Continuation) :
    Turn n e (e.await n k) where
  log := .of_eq rfl
  numbers _ := Or.inl rfl
  pending x hx := (List.mem_append.mp hx).imp id fun hx => by
    rw [List.mem_singleton.mp hx]
    exact ⟨rfl, hkey⟩
  started := rfl
  encryptionKey := rfl

theorem turn_decryptScene (fromClientId : String) (done todo : List ElementUpdate) :
    Turn n e (e.decryptScene n adapter fromClientId done todo) := by
  induction todo generalizing done with
  | nil => exact turn_record _
  | cons element todo ih =>
    unfold decryptScene
    split
    · exact ih _
    · split
      · rename_i hkey
        exact turn_await hkey _
      · exact (Still.refl e).turn

theorem turn_encryptScene (done todo : List ElementUpdate) :
    Turn n e (e.encryptScene n done todo) := by
  induction todo generalizing done with
  | nil => exact turn_trySend _
  | cons element todo ih =>
    unfold encryptScene
    split
    · exact ih _
    · split
      · rename_i hkey
        exact turn_await hkey _
      · exact (Still.refl e).turn

theorem turn_applySceneInit (payload : String) : Turn n e (e.applySceneInit n adapter payload) :=
  (turn_record (.call adapter (.applySceneInit payload))).andThen (.of_eq rfl rfl rfl rfl)

theorem turn_syncEvent (event : CollabEvent) : Turn n e (e.syncEvent doc n event) := by
  unfold syncEvent
  split
  · exact (Still.refl e).turn
  · split
    · split
      · exact turn_decryptScene _ _ _
      · exact turn_record _
    · split
      · rename_i hkey
        exact turn_await hkey _
      · exact turn_record _
    · split
      · exact (Still.refl e).turn
      · exact turn_record _
    · dsimp only
      generalize (if _ = "" then _ else _ : String) = payload
      split
      · rename_i hwaits
        exact turn_await (Bool.and_eq_true_iff.mp hwaits).1 _
      · exact turn_applySceneInit _
    · dsimp only
      split
      · split
        · rename_i hkey
          exact .after rfl (turn_await hkey _)
        · exact .after rfl (turn_trySend _)
      · exact (Still.refl e).turn
    · exact (Still.refl e).turn

theorem turn_sendOutgoing (update : OutgoingUpdate) : Turn n e (e.sendOutgoing n update) := by
  cases update with
  | sceneUpdate su =>
    unfold sendOutgoing
    dsimp only
    split
    · exact turn_encryptScene _ _
    · exact turn_trySend _
  | textUpdate tu =>
    unfold sendOutgoing
    dsimp only
    split
    · rename_i hkey
      exact turn_await hkey _
    · exact turn_trySend _

theorem turn_flushOutgoing : Turn e.started e.begin (e.flushOutgoing doc) := by
  unfold flushOutgoing
  dsimp only
  split
  · exact (Still.refl _).turn
  · split
    · exact (Still.refl _).turn
    · split
      · exact turn_record _
      · exact .after rfl (turn_sendOutgoing _)

theorem turn_resume (value : String) (k : Continuation) : Turn n e (e.resume n value k) := by
  cases k with
  | scene => exact turn_decryptScene _ _ _
  | text => exact turn_record _
  | sceneInit => exact turn_applySceneInit _
  | snapshot => exact turn_trySend _
  | outgoingScene => exact turn_encryptScene _ _
  | outgoingText => exact turn_trySend _

/-! ### One move -/

/-- The numbers of the calls so far were given out. -/
structure Numbered (e : CollabEngine) : Prop where
  log : ∀ x ∈ e.log, ∀ j, x.1 = some j → j < e.started
  pending : ∀ x ∈ e.pending, x.1 < e.started

/-- In order so far. -/
structure Ordered (e : CollabEngine) : Prop extends Numbered e where
  inOrder : InOrder e

theorem Numbered.numbers (h : Numbered e) (d : Direction) : ∀ j ∈ e.numbers d, j < e.started := by
  intro j hj
  obtain ⟨x, hx, hnumber⟩ := List.mem_filterMap.mp hj
  exact h.log x hx j (Option.ite_none_right_eq_some.mp hnumber).2

theorem Numbered.turn (h : Numbered e) (hn : n < e.started) (hturn : Turn n e e') :
    Numbered e' := by
  obtain ⟨log, heq, hlog⟩ := hturn.log
  refine ⟨fun x hx j hj => ?_, fun x hx => ?_⟩
  · rw [heq] at hx
    rw [hturn.started]
    obtain hx | hx := List.mem_append.mp hx
    · exact h.log x hx j hj
    · exact hlog x hx j hj ▸ hn
  · rw [hturn.started]
    exact (hturn.pending x hx).elim (h.pending x) fun hx => hx.1 ▸ hn

theorem Numbered.still (h : Numbered e) (hstill : Still e e') : Numbered e' := by
  obtain ⟨log, heq, hlog⟩ := hstill.log
  refine ⟨fun x hx j hj => ?_, fun x hx => ?_⟩
  · rw [heq] at hx
    rw [hstill.started]
    obtain hx | hx := List.mem_append.mp hx
    · exact h.log x hx j hj
    · simp [hlog x hx] at hj
  · rw [hstill.started]
    exact h.pending x (hstill.pending ▸ hx)

/-- A new call gets the next number. -/
theorem Numbered.next (h : Numbered e) (hturn : Turn e.started e.begin e') : Numbered e' := by
  have hbegin : Numbered e.begin := by
    refine ⟨fun x hx j hj => ?_, fun x hx => ?_⟩
    · exact Nat.lt_succ_of_lt (h.log x hx j hj)
    · exact Nat.lt_succ_of_lt (h.pending x hx)
  exact hbegin.turn (Nat.lt_succ_self _) hturn

theorem Numbered.still_or_turn (h : Numbered e) (hmove : Still e e' ∨ Turn e.started e.begin e') :
    Numbered e' := hmove.elim h.still h.next

/-- A promise that settles lets a call go on that was given its number. -/
theorem Numbered.settle {value : Option String} (h : Numbered e)
    (hstep : e.settle n value = some e') : Numbered e' := by
  obtain ⟨k, hk, rfl⟩ := Option.map_eq_some_iff.mp hstep
  have hn : n < e.started := by
    obtain ⟨before, after, heq, -⟩ := List.lookup_eq_some_iff.mp hk
    exact h.pending (n, k) (by simp [heq])
  have hrest : Numbered { e with pending := e.pending.filter (·.1 ≠ n) } :=
    ⟨h.log, fun x hx => h.pending x (List.mem_of_mem_filter hx)⟩
  cases value with
  | none => exact hrest
  | some value => exact hrest.turn hn (turn_resume value k)

theorem Ordered.still (h : Ordered e) (hstill : Still e e') : Ordered e' where
  toNumbered := h.toNumbered.still hstill
  inOrder d := by
    rw [hstill.numbers d]
    exact h.inOrder d

/-- A new call comes after all others. -/
theorem Ordered.next (h : Ordered e) (hturn : Turn e.started e.begin e') : Ordered e' where
  toNumbered := h.toNumbered.next hturn
  inOrder d := by
    obtain heq | heq := hturn.numbers d
    · rw [heq]
      exact h.inOrder d
    · rw [heq, List.pairwise_append]
      refine ⟨h.inOrder d, List.pairwise_singleton _ _, fun j hj k hk => ?_⟩
      rw [List.mem_singleton.mp hk]
      exact h.numbers d j hj

theorem Still.next {e₁ : CollabEngine} (h : Still e e₁) (hturn : Turn e₁.started e₁.begin e') :
    Turn e.started e.begin e' := by
  have hbegin : Still e.begin e₁.begin :=
    ⟨h.log, h.pending, congrArg (· + 1) h.started, h.encryptionKey⟩
  rw [← h.started]
  exact hbegin.andThen hturn

theorem still_triggerSceneInit (h : e.triggerSceneInit = some e') : Still e e' := by
  obtain rfl | ⟨e₁, hsend, rfl⟩ := triggerSceneInit_cases h
  · exact .of_eq rfl rfl rfl rfl
  · exact (still_send hsend).trans (.of_eq rfl rfl rfl rfl)

/-- An event starts a call, unless the engine throws. -/
theorem still_or_turn_onEvent (event : CollabEvent) :
    Still e (e.onEvent doc event) ∨ Turn e.started e.begin (e.onEvent doc event) := by
  have hsync : ∀ e₁, Still e e₁ → Turn e.started e.begin (e₁.handleSyncEvent doc event) :=
    fun e₁ hstill => hstill.next (turn_syncEvent event)
  unfold onEvent
  split
  · rename_i rj _
    have henter : Still e (e.enterRoom rj) := .of_eq rfl rfl rfl rfl
    dsimp only
    split
    · split
      · exact Or.inl henter
      · rename_i e₁ htrigger
        exact Or.inr (hsync e₁ (henter.trans (still_triggerSceneInit htrigger)))
    · exact Or.inr (hsync _ henter)
  · exact Or.inr (hsync e (.refl e))

theorem still_sendCursor : Still e (e.sendCursor doc) := by
  have hmark : Still e { e with cursorPending := false } := .of_eq rfl rfl rfl rfl
  refine hmark.trans ?_
  unfold sendCursor
  dsimp only
  split
  · exact .refl _
  · split
    · exact still_record _
    · exact (still_record _).trans (still_trySend _)

theorem still_perform {call : EngineCall} (hkey : ∀ key, call ≠ .setEncryptionKey key) :
    Still e (e.perform doc call) := by
  have hdisconnect : ∀ e : CollabEngine, Still e (e.disconnect doc) :=
    fun e => ((within_quiet doc).disconnect (.refl e)).still
  cases call with
  | connect params =>
    change Still e ((e.connect doc params).getD (e.wire params))
    unfold connect Page.connect
    split <;> exact .of_eq rfl rfl rfl rfl
  | disconnect => exact hdisconnect e
  | dispose =>
    have hmark : Still e { e with disposed := true } := .of_eq rfl rfl rfl rfl
    refine hmark.trans ?_
    change Still _ (clearTimers doc _)
    split
    · exact (hdisconnect _).trans quiet_clearTimers.still
    · exact quiet_clearTimers.still
  | setAdapter adapter =>
    have hset : Still e { e with adapter } := .of_eq rfl rfl rfl rfl
    change Still e (e.setAdapter adapter)
    unfold setAdapter
    dsimp only
    split
    · cases htrigger : triggerSceneInit { e with adapter } with
      | none => exact hset
      | some e₁ => exact hset.trans (still_triggerSceneInit htrigger)
    · exact hset
  | setEncryptionKey key => exact absurd rfl (hkey key)
  | notifyLocalChange =>
    change Still e (e.notifyLocalChange doc)
    unfold notifyLocalChange
    split <;> exact .of_eq rfl rfl rfl rfl
  | notifyCursorMove =>
    change Still e (e.notifyCursorMove doc)
    unfold notifyCursorMove
    split <;> exact .of_eq rfl rfl rfl rfl
  | notifyCredentialsChanged reason => exact still_trySend _
  | notifyTitleChanged title => exact still_trySend _

/-- A job starts a call at most. -/
theorem still_or_turn_run {job : Job} (h : e.run doc job = some e') :
    Still e e' ∨ Turn e.started e.begin e' := by
  by_cases hmessage : ∃ socket event, job = .message socket event
  · obtain ⟨socket, event, rfl⟩ := hmessage
    obtain ⟨-, heq⟩ := Option.ite_none_right_eq_some.mp h
    obtain rfl := Option.some.inj heq
    have haside : Still (e.onEvent doc event) (e.receive doc event) := (receive_aside event).still
    exact (still_or_turn_onEvent event).imp (fun hstill => hstill.trans haside)
      (fun hturn => hturn.andThen haside)
  · have hother : ∀ socket event, job ≠ .message socket event :=
      fun socket event heq => hmessage ⟨socket, event, heq⟩
    exact Or.inl (quiet_run hother h).still

theorem still_or_turn_fire {timer : Nat} (h : e.fire doc timer = some e') :
    Still e e' ∨ Turn e.started e.begin e' := by
  have hclear : Still e (e.expire timer) := .of_eq rfl rfl rfl rfl
  obtain ⟨callback, -, rfl⟩ := Option.map_eq_some_iff.mp h
  cases callback with
  | flushOutgoing => exact Or.inr (hclear.next turn_flushOutgoing)
  | sendCursor => exact Or.inl (hclear.trans still_sendCursor)

theorem Ordered.still_or_turn (h : Ordered e) (hmove : Still e e' ∨ Turn e.started e.begin e') :
    Ordered e' := hmove.elim h.still h.next

/-- A promise that settles keeps the order exactly if it is its turn. -/
theorem Ordered.settle_iff {value : Option String} (h : Ordered e)
    (hstep : e.settle n value = some e') : InOrder e' ↔ InTurn e (.settled n value) := by
  obtain ⟨k, hk, rfl⟩ := Option.map_eq_some_iff.mp hstep
  cases value with
  | none => exact iff_of_true h.inOrder trivial
  | some value =>
    have hone : ∀ d, (({ e with pending := e.pending.filter (·.1 ≠ n) } : CollabEngine).resume n
        value k).numbers d = e.numbers d ++ if Ends e k d then [n] else [] :=
      fun d => numbers_resume value k
    constructor
    · intro horder k' hk' d hends
      obtain rfl := Option.some.inj (hk.symm.trans hk')
      have hd := horder d
      rw [hone d, if_pos hends, List.pairwise_append] at hd
      exact fun j hj => hd.2.2 j hj n (List.mem_singleton.mpr rfl)
    · intro hturn d
      rw [hone d]
      split
      · rename_i hends
        rw [List.pairwise_append]
        refine ⟨h.inOrder d, List.pairwise_singleton _ _, fun j hj i hi => ?_⟩
        rw [List.mem_singleton.mp hi]
        exact hturn k hk d hends j hj
      · rw [List.append_nil]
        exact h.inOrder d

/-- A move other than of a promise. -/
theorem still_or_turn_step {m : EngineMove} (hkey : ∀ key, m ≠ .call (.setEncryptionKey key))
    (hsettle : ∀ n value, m ≠ .settled n value) (hstep : e.step doc m = some e') :
    Still e e' ∨ Turn e.started e.begin e' := by
  cases m with
  | call call =>
    obtain rfl := Option.some.inj hstep
    exact Or.inl (still_perform fun key heq => hkey key (congrArg EngineMove.call heq))
  | job job => exact still_or_turn_run hstep
  | fired timer => exact still_or_turn_fire hstep
  | settled n value => exact absurd rfl (hsettle n value)

theorem Numbered.step {m : EngineMove} (h : Numbered e) (hstep : e.step doc m = some e') :
    Numbered e' := by
  by_cases hkey : ∃ key, m = .call (.setEncryptionKey key)
  · obtain ⟨key, rfl⟩ := hkey
    obtain rfl := Option.some.inj hstep
    exact ⟨h.log, h.pending⟩
  · by_cases hsettle : ∃ n value, m = .settled n value
    · obtain ⟨n, value, rfl⟩ := hsettle
      exact h.settle hstep
    · exact h.still_or_turn (still_or_turn_step (fun key heq => hkey ⟨key, heq⟩)
        (fun n value heq => hsettle ⟨n, value, heq⟩) hstep)

/-- The updates stay in order exactly in the moves that come in turn. -/
theorem Ordered.step_iff {m : EngineMove} (h : Ordered e) (hstep : e.step doc m = some e') :
    InOrder e' ↔ InTurn e m := by
  by_cases hkey : ∃ key, m = .call (.setEncryptionKey key)
  · obtain ⟨key, rfl⟩ := hkey
    obtain rfl := Option.some.inj hstep
    exact iff_of_true h.inOrder trivial
  · by_cases hsettle : ∃ n value, m = .settled n value
    · obtain ⟨n, value, rfl⟩ := hsettle
      exact h.settle_iff hstep
    · have hmove := still_or_turn_step (fun key heq => hkey ⟨key, heq⟩)
        (fun n value heq => hsettle ⟨n, value, heq⟩) hstep
      refine iff_of_true (h.still_or_turn hmove).inOrder ?_
      unfold InTurn
      split
      · exact absurd ⟨_, _, rfl⟩ hsettle
      · trivial

theorem numbered_start (options : CollabClientOptions) (maxRetries : Nat) (adapter : Option Nat) :
    Numbered (start options maxRetries adapter) :=
  ⟨fun _ hx => absurd hx List.not_mem_nil, fun _ hx => absurd hx List.not_mem_nil⟩

theorem ordered_start (options : CollabClientOptions) (maxRetries : Nat) (adapter : Option Nat) :
    Ordered (start options maxRetries adapter) :=
  ⟨numbered_start options maxRetries adapter, fun _ => List.Pairwise.nil⟩

/-- Nothing waits where there never was a key. -/
structure Unkeyed (e : CollabEngine) : Prop extends Ordered e where
  encryptionKey : e.encryptionKey = none
  idle : e.pending = []

/-- The move sets a key. -/
def SetsKey : EngineMove → Prop
  | .call (.setEncryptionKey (some _)) => True
  | _ => False

theorem Unkeyed.still_or_turn (h : Unkeyed e) (hmove : Still e e' ∨ Turn e.started e.begin e') :
    Unkeyed e' where
  toOrdered := h.toOrdered.still_or_turn hmove
  encryptionKey := by
    obtain hstill | hturn := hmove
    · exact hstill.encryptionKey.trans h.encryptionKey
    · exact hturn.encryptionKey.trans h.encryptionKey
  idle := by
    obtain hstill | hturn := hmove
    · exact hstill.pending.trans h.idle
    · refine List.eq_nil_iff_forall_not_mem.mpr fun x hx => ?_
      have hkey : e.begin.encryptionKey = none := h.encryptionKey
      have hidle : e.begin.pending = [] := h.idle
      simpa [hkey, hidle] using hturn.pending x hx

theorem Unkeyed.step {m : EngineMove} (h : Unkeyed e) (hm : ¬ SetsKey m)
    (hstep : e.step doc m = some e') : Unkeyed e' := by
  cases m with
  | call call =>
    obtain rfl := Option.some.inj hstep
    by_cases hkey : ∃ key, call = .setEncryptionKey key
    · obtain ⟨key, rfl⟩ := hkey
      cases key with
      | none => exact ⟨⟨⟨h.log, h.pending⟩, h.inOrder⟩, rfl, h.idle⟩
      | some key => exact absurd trivial hm
    · exact h.still_or_turn (Or.inl (still_perform fun key heq => hkey ⟨key, heq⟩))
  | job job => exact h.still_or_turn (still_or_turn_run hstep)
  | fired timer => exact h.still_or_turn (still_or_turn_fire hstep)
  | settled n value =>
    obtain ⟨k, hk, -⟩ := Option.map_eq_some_iff.mp hstep
    simp [h.idle] at hk

/-! ### Runs -/

instance (e : CollabEngine) (m : EngineMove) : Decidable (InTurn e m) := by
  unfold InTurn
  split
  · rename_i n _
    refine decidable_of_iff
      (∀ k ∈ (e.pending.lookup n).toList, ∀ d ∈ [Direction.outgoing, .incoming],
      Ends e k d → ∀ j ∈ e.numbers d, j < n) ?_
    simp only [Option.mem_toList]
    refine forall_congr' fun k => forall_congr' fun _ => forall_congr' fun d => ?_
    cases d <;> simp
  · infer_instance

end CollabEngine

namespace Network

variable {ι : Type} [DecidableEq ι]

/-- In every run of the relay and its engines, each engine sends and applies updates in order
throughout exactly when all promises settle in turn. -/
theorem inOrder_iff (w : Surroundings ι) (maxPeers : Int)
    (engine : ι → CollabClientOptions × Nat × Option Nat) (ms : List (NetworkMove ι))
    {t : Network ι}
    (hrun : Machine.exec (step w) (start maxPeers engine) ms = some t) :
    Machine.Throughout (step w) (fun s => ∀ x, (s.engine x).InOrder) (start maxPeers engine) ms ↔
      Machine.Guarded (step w) (EngineGuard w CollabEngine.InTurn) (start maxPeers engine) ms :=
  throughout_iff (fun _ h => h.inOrder)
    (fun _ _ _ _ h hG hstep => ⟨h.toNumbered.step hstep, (h.step_iff hstep).mpr hG⟩)
    (fun _ _ _ _ h hstep horder => (h.step_iff hstep).mp horder)
    (fun _ => CollabEngine.ordered_start _ _ _) hrun

/-- Without a key they always do. -/
theorem inOrder_of_unkeyed (w : Surroundings ι) (maxPeers : Int)
    (engine : ι → CollabClientOptions × Nat × Option Nat) (ms : List (NetworkMove ι))
    {t : Network ι}
    (hms : ∀ x move, .engine x move ∈ ms → ¬ CollabEngine.SetsKey move)
    (hrun : Machine.exec (step w) (start maxPeers engine) ms = some t) (x : ι) :
    (t.engine x).InOrder := by
  have hguarded : Machine.Guarded (step w) (EngineGuard w fun _ move => ¬ CollabEngine.SetsKey move)
      (start maxPeers engine) ms := by
    refine Machine.guarded_of_forall fun m hm s x move hmove => ?_
    cases m with
    | engine y move' =>
      obtain ⟨rfl, rfl⟩ := Prod.mk.inj (Option.some.inj hmove)
      exact hms y move' hm
    | deliver y socket =>
      obtain ⟨event, -, heq⟩ := Option.map_eq_some_iff.mp hmove
      obtain ⟨rfl, rfl⟩ := Prod.mk.inj heq
      exact id
    | relay move' => simp [engineMove] at hmove
  have hunkeyed : ∀ x, (t.engine x).Unkeyed :=
    Machine.invariant_guarded (I := fun s : Network ι => ∀ x, (s.engine x).Unkeyed)
      (fun _ _ _ hI hG hstep => step_keeps (fun _ _ _ _ h hm hmove => h.step hm hmove) hI hG hstep)
      (fun _ => ⟨CollabEngine.ordered_start _ _ _, rfl, rfl⟩) hguarded hrun
  exact (hunkeyed x).inOrder

/-- Editors that always have a new text. -/
def typing (n : Nat) [NeZero n] : Surroundings (Fin n) :=
  { Surroundings.plain n with
    document := fun _ => { Document.blank with
      computeOutgoing := fun _ =>
        some (.textUpdate { text := "text", version := 1, cursorPosition := 0 }) } }

/-- Two engines in a room with a key, of which the first computes two updates. -/
def twoUpdates : List (NetworkMove (Fin 2)) :=
  List.flatten [join 0 (plainParams true) 20, join 1 (plainParams false) 21,
    [.engine 0 (.call (.setEncryptionKey (some 0))), .engine 1 (.call (.setEncryptionKey (some 0))),
      .engine 0 (.call .notifyLocalChange), .engine 0 (.fired 0),
      .engine 0 (.call .notifyLocalChange), .engine 0 (.fired 1)]]

theorem inOrder_twoUpdates : ∃ ms t,
    Machine.exec (step (typing 2)) (start 10 fun _ => ({}, 5, some 0)) ms = some t ∧
    (t.engine 0).numbers .outgoing = [1, 2] ∧
    Machine.Throughout (step (typing 2)) (fun s => ∀ x, (s.engine x).InOrder)
      (start 10 fun _ => ({}, 5, some 0)) ms := by
  have hrun : (Machine.execIf (step (typing 2)) (EngineGuard (typing 2) CollabEngine.InTurn)
      (start 10 fun _ => ({}, 5, some 0)) (twoUpdates ++
        [.engine 0 (.settled 1 (some "first")), .engine 0 (.settled 2 (some "second"))])).any
      (fun t => (t.engine 0).numbers .outgoing = [1, 2]) = true := by
    decide +kernel
  obtain ⟨t, ht, hnumbers⟩ := (Option.any_eq_true _ _).mp hrun
  obtain ⟨hguarded, ht⟩ := Machine.execIf_eq_some ht
  exact ⟨_, t, ht, of_decide_eq_true hnumbers, (inOrder_iff _ _ _ _ ht).mpr hguarded⟩

/-- The second is encrypted first. -/
theorem overtaken : ¬ ∀ (ι : Type) [DecidableEq ι] (w : Surroundings ι) (maxPeers : Int)
    (engine : ι → CollabClientOptions × Nat × Option Nat) (ms : List (NetworkMove ι))
    (t : Network ι), Machine.exec (step w) (start maxPeers engine) ms = some t →
      ∀ x, (t.engine x).InOrder := by
  intro h
  have hrun : (Machine.exec (step (typing 2)) (start 10 fun _ => ({}, 5, some 0)) (twoUpdates ++
      [.engine 0 (.settled 2 (some "second")), .engine 0 (.settled 1 (some "first"))])).any
      (fun t => (t.engine 0).numbers .outgoing = [2, 1]) = true := by
    decide +kernel
  obtain ⟨t, ht, hnumbers⟩ := (Option.any_eq_true _ _).mp hrun
  have horder := h _ _ _ _ _ t ht 0 .outgoing
  rw [of_decide_eq_true hnumbers] at horder
  exact absurd horder (by decide)

end Network

end MassRelay.Ts

import MassRelay.Ts.Network
import MassRelay.Ts.Effects

/-!
# MassRelay.Ts.Snapshots

Who applies the snapshot of a scene.

A `SceneInitResponse` goes to everybody in the room but its sender and says nothing of the request
that it answers, and an engine with an adapter applies each one that it gets. So a snapshot is
applied only by the one who asked for it exactly when every response comes to an engine that
waits for one (`Awaited`).
-/

namespace MassRelay.Ts

/-- What an engine does about the scene. -/
inductive Mark
  | asked
  | applied
  deriving DecidableEq

def Effect.mark : Effect → Option Mark
  | .send .sceneInitRequest => some .asked
  | .call _ (.applySceneInit _) => some .applied
  | _ => none

/-- Whatever was applied had just been asked for. -/
def Mark.Paired (marks : List Mark) : Prop :=
  ∀ before after, marks = before ++ .applied :: after → before.getLast? = some .asked

/-- One mark more. -/
theorem Mark.paired_concat {marks : List Mark} {m : Mark} :
    Mark.Paired (marks ++ [m]) ↔
      Mark.Paired marks ∧ (m = .applied → marks.getLast? = some .asked) := by
  constructor
  · intro h
    refine ⟨fun before after heq => ?_, fun hm => ?_⟩
    · exact h before (after ++ [m]) (by rw [heq, List.append_assoc, List.cons_append])
    · exact h marks [] (by rw [hm])
  · rintro ⟨h, hm⟩ before after heq
    obtain rfl | ⟨after, x, rfl⟩ := List.eq_nil_or_concat after
    · obtain ⟨rfl, hx⟩ := List.append_inj' heq rfl
      exact hm (List.cons.inj hx).1
    · rw [List.concat_eq_append, ← List.cons_append, ← List.append_assoc] at heq
      exact h before after (List.append_inj' heq rfl).1

namespace CollabEngine

variable {doc : Document} {e e' : CollabEngine} {n adapter : Nat} {origin : Option Nat}

def marks (e : CollabEngine) : List Mark := e.log.filterMap (·.2.mark)

/-- How an engine stands with the scene. -/
def scene (e : CollabEngine) : List Mark × Bool := (e.marks, e.state.isInitialized)

/-- A request that the engine sent is unanswered. -/
def Unanswered (e : CollabEngine) : Prop := e.marks.getLast? = some .asked

/-- Each time it applied a scene, the engine had a request of its own unanswered. -/
def AppliesOwn (e : CollabEngine) : Prop := Mark.Paired e.marks

/-- The move brings a snapshot of the scene: in the clear, or from `decryptPayload`. -/
def Brings (e : CollabEngine) : EngineMove → Prop
  | .job (.message _ { event := .sceneInitResponse response, .. }) => e.adapter.isSome = true ∧
      (e.encryptionKey = none ∨ response.payload = "" ∨ response.payload = "{}")
  | .settled n (some _) => ∃ adapter, e.pending.lookup n = some (.sceneInit adapter)
  | _ => False

/-- The engine waits for the snapshot that the move brings. -/
def Awaited (e : CollabEngine) (m : EngineMove) : Prop := Brings e m → e.Unanswered

/-! ### What an engine does about the scene -/

theorem marks_log {log : List (Option Nat × Effect)} (h : e'.log = e.log ++ log) :
    e'.marks = e.marks ++ log.filterMap (·.2.mark) := by
  rw [marks, h, List.filterMap_append, marks]

theorem marks_record (effect : Effect) :
    (e.record origin effect).marks = e.marks ++ effect.mark.toList := by
  rw [marks_log (e := e) rfl]
  cases h : effect.mark <;> simp [h]

theorem scene_record_of_none {effect : Effect} (h : effect.mark = none) :
    (e.record origin effect).scene = e.scene := by
  refine Prod.ext ?_ rfl
  exact (marks_record _).trans (by rw [h, Option.toList_none, List.append_nil]; rfl)

theorem marks_send {action : Action} (h : e.send origin action = some e') :
    e'.marks = e.marks ++ (Effect.send action).mark.toList := by
  obtain ⟨-, -, rfl⟩ := send_eq_some.mp h
  exact marks_record _

theorem scene_trySend {action : Action} (h : (Effect.send action).mark = none) :
    (e.trySend origin action).scene = e.scene := by
  by_cases hsend : e.CanSend
  · rw [trySend_of_canSend hsend]
    exact scene_record_of_none h
  · rw [trySend_of_not hsend]

theorem scene_decryptScene (fromClientId : String) (done todo : List ElementUpdate) :
    (e.decryptScene n adapter fromClientId done todo).scene = e.scene := by
  induction todo generalizing done with
  | nil => exact scene_record_of_none rfl
  | cons element todo ih =>
    unfold decryptScene
    split
    · exact ih _
    · split <;> rfl

theorem scene_encryptScene (done todo : List ElementUpdate) :
    (e.encryptScene n done todo).scene = e.scene := by
  induction todo generalizing done with
  | nil => exact scene_trySend rfl
  | cons element todo ih =>
    unfold encryptScene
    split
    · exact ih _
    · split <;> rfl

theorem scene_applySceneInit (payload : String) :
    (e.applySceneInit n adapter payload).scene = (e.marks ++ [.applied], true) :=
  Prod.ext (marks_record _) rfl

/-- A sync event, unless it is a snapshot in the clear. -/
theorem scene_handleSyncEvent (event : CollabEvent)
    (hresponse : ∀ response, event.event ≠ .sceneInitResponse response) :
    (e.handleSyncEvent doc event).scene = e.scene := by
  have hbegin : e.begin.scene = e.scene := rfl
  rw [handleSyncEvent, ← hbegin]
  generalize e.begin = e, e.started = n
  unfold syncEvent
  split
  · rfl
  · split
    · split
      · exact scene_decryptScene _ _ _
      · exact scene_record_of_none rfl
    · split
      · rfl
      · exact scene_record_of_none rfl
    · split
      · rfl
      · exact scene_record_of_none rfl
    · rename_i response heq
      exact absurd heq (hresponse response)
    · dsimp only
      split
      · split
        · exact scene_record_of_none rfl
        · exact (scene_trySend rfl).trans (scene_record_of_none rfl)
      · rfl
    · rfl

theorem scene_sendOutgoing (update : OutgoingUpdate) :
    (e.sendOutgoing n update).scene = e.scene := by
  cases update with
  | sceneUpdate su =>
    unfold sendOutgoing
    dsimp only
    split
    · exact scene_encryptScene _ _
    · exact scene_trySend rfl
  | textUpdate tu =>
    unfold sendOutgoing
    dsimp only
    split
    · rfl
    · exact scene_trySend rfl

theorem scene_flushOutgoing : (e.flushOutgoing doc).scene = e.scene := by
  unfold flushOutgoing
  dsimp only
  split
  · rfl
  · split
    · rfl
    · split
      · exact scene_record_of_none rfl
      · exact (scene_sendOutgoing _).trans (scene_record_of_none rfl)

/-- An asynchronous call goes on, and applies a scene if that is what it is about. -/
theorem scene_resume (value : String) (k : Continuation) :
    (∃ adapter, k = .sceneInit adapter) ∧
    (e.resume n value k).scene = (e.marks ++ [.applied], true) ∨
      (∀ adapter, k ≠ .sceneInit adapter) ∧ (e.resume n value k).scene = e.scene := by
  cases k with
  | sceneInit adapter => exact Or.inl ⟨⟨adapter, rfl⟩, scene_applySceneInit _⟩
  | scene => exact Or.inr ⟨by simp, scene_decryptScene _ _ _⟩
  | text => exact Or.inr ⟨by simp, scene_record_of_none rfl⟩
  | snapshot => exact Or.inr ⟨by simp, scene_trySend rfl⟩
  | outgoingScene => exact Or.inr ⟨by simp, scene_encryptScene _ _⟩
  | outgoingText => exact Or.inr ⟨by simp, scene_trySend rfl⟩

theorem marks_triggerSceneInit (h : e.triggerSceneInit = some e') :
    e'.marks = e.marks ∨ e'.marks = e.marks ++ [.asked] := by
  obtain rfl | ⟨e₁, hsend, rfl⟩ := triggerSceneInit_cases h
  · exact Or.inl rfl
  · exact Or.inr (marks_send hsend)

theorem Quiet.marks (h : Quiet e e') : e'.marks = e.marks := by
  rw [CollabEngine.marks, h.log, CollabEngine.marks]

theorem Aside.marks (h : Aside e e') : e'.marks = e.marks := by
  obtain ⟨log, heq, hlog⟩ := h.log
  have hnone : log.filterMap (·.2.mark) = [] := by
    rw [List.filterMap_eq_nil_iff]
    intro x hx
    obtain ⟨_, _, rfl⟩ := hlog x hx
    rfl
  rw [marks_log heq, hnone, List.append_nil]

/-! ### One move -/

/-- An event other than a snapshot. -/
theorem marks_onEvent {event : CollabEvent}
    (hresponse : ∀ response, event.event ≠ .sceneInitResponse response) :
    (e.onEvent doc event).marks = e.marks ∨ (e.onEvent doc event).marks = e.marks ++ [.asked] := by
  have hsync : ∀ e : CollabEngine, (e.handleSyncEvent doc event).marks = e.marks :=
    fun e => congrArg Prod.fst (scene_handleSyncEvent event hresponse)
  unfold onEvent
  split
  · rename_i rj _
    have henter : (e.enterRoom rj).marks = e.marks := rfl
    dsimp only
    rw [← henter]
    split
    · split
      · exact Or.inl rfl
      · rename_i e₁ htrigger
        rw [hsync e₁]
        exact marks_triggerSceneInit htrigger
    · exact Or.inl (hsync _)
  · exact Or.inl (hsync e)

theorem syncEvent_sceneInitResponse (doc : Document) (hadapter : e.adapter = some adapter)
    (eventId fromClientId : String) (response : SceneInitResponse) :
    e.syncEvent doc n { eventId, fromClientId, event := .sceneInitResponse response } =
      let payload := if response.payload = "" then "{}" else response.payload
      if e.encryptionKey.isSome && payload ≠ "{}" then e.await n (.sceneInit adapter)
      else e.applySceneInit n adapter payload := by
  unfold syncEvent
  rw [hadapter]

/-- A snapshot. -/
theorem scene_sceneInitResponse (doc : Document) (e : CollabEngine) (socket : Nat)
    (eventId fromClientId : String) (response : SceneInitResponse) {e₁ : CollabEngine}
    (h : e.handleSyncEvent doc ⟨eventId, fromClientId, .sceneInitResponse response⟩ = e₁) :
    Brings e (.job (.message socket ⟨eventId, fromClientId, .sceneInitResponse response⟩)) ∧
        e₁.scene = (e.marks ++ [.applied], true) ∨
      ¬ Brings e (.job (.message socket ⟨eventId, fromClientId, .sceneInitResponse response⟩)) ∧
        e₁.scene = e.scene := by
  subst h
  change (e.begin.adapter.isSome = true ∧ (e.begin.encryptionKey = none ∨ _ ∨ _)) ∧
      _ = (e.begin.marks ++ _, _) ∨
    ¬ (e.begin.adapter.isSome = true ∧ (e.begin.encryptionKey = none ∨ _ ∨ _)) ∧ _ = e.begin.scene
  have hbare : (response.payload = "" ∨ response.payload = "{}") ↔
      (if response.payload = "" then "{}" else response.payload) = "{}" := by
    split <;> simp [*]
  rw [handleSyncEvent, hbare]
  generalize e.begin = e, e.started = n
  cases hadapter : e.adapter with
  | none =>
    refine Or.inr ⟨by simp, ?_⟩
    unfold syncEvent
    rw [hadapter]
  | some adapter =>
    rw [syncEvent_sceneInitResponse doc hadapter]
    generalize (if response.payload = "" then "{}" else response.payload) = payload
    dsimp only
    by_cases hclear : e.encryptionKey = none ∨ payload = "{}"
    · have hnot : ¬ (e.encryptionKey.isSome && decide (payload ≠ "{}")) = true := by
        obtain hkey | hpayload := hclear <;> simp [*]
      rw [if_neg hnot]
      exact Or.inl ⟨⟨rfl, hclear⟩, scene_applySceneInit _⟩
    · have hwaits : (e.encryptionKey.isSome && decide (payload ≠ "{}")) = true := by
        simpa [Option.isSome_iff_ne_none] using hclear
      rw [if_pos hwaits]
      exact Or.inr ⟨fun h => hclear h.2, rfl⟩

/-- A move that brings no snapshot may ask for one. -/
theorem marks_receive (socket : Nat) (event : CollabEvent) :
    Brings e (.job (.message socket event)) ∧ (e.receive doc event).marks = e.marks ++ [.applied] ∨
      ¬ Brings e (.job (.message socket event)) ∧ ((e.receive doc event).marks = e.marks ∨
        (e.receive doc event).marks = e.marks ++ [.asked]) := by
  have haside : (e.receive doc event).marks = (e.onEvent doc event).marks :=
    (receive_aside event).marks
  rw [haside]
  obtain ⟨eventId, fromClientId, kind⟩ := event
  cases kind with
  | sceneInitResponse response =>
    obtain happlied | ⟨hbrings, hsame⟩ :=
      scene_sceneInitResponse doc e socket eventId fromClientId response rfl
    · exact Or.inl ⟨happlied.1, congrArg Prod.fst happlied.2⟩
    · exact Or.inr ⟨hbrings, Or.inl (congrArg Prod.fst hsame)⟩
  | _ => exact Or.inr ⟨id, marks_onEvent (by simp)⟩

theorem marks_perform (call : EngineCall) :
    (e.perform doc call).marks = e.marks ∨ (e.perform doc call).marks = e.marks ++ [.asked] := by
  have hdisconnect : ∀ e : CollabEngine, (e.disconnect doc).marks = e.marks :=
    fun e => ((within_quiet doc).disconnect (.refl e)).marks
  cases call with
  | connect params =>
    refine Or.inl ?_
    change ((e.connect doc params).getD (e.wire params)).marks = e.marks
    unfold connect Page.connect
    split <;> rfl
  | disconnect => exact Or.inl (hdisconnect e)
  | dispose =>
    refine Or.inl ?_
    change (e.dispose doc).marks = e.marks
    unfold dispose
    dsimp only
    split
    · exact quiet_clearTimers.marks.trans (hdisconnect _)
    · exact quiet_clearTimers.marks
  | setAdapter adapter =>
    change (e.setAdapter adapter).marks = e.marks ∨ (e.setAdapter adapter).marks = _
    unfold setAdapter
    dsimp only
    split
    · cases htrigger : triggerSceneInit { e with adapter } with
      | none => exact Or.inl rfl
      | some e₁ =>
        have hmarks := marks_triggerSceneInit htrigger
        exact hmarks
    · exact Or.inl rfl
  | setEncryptionKey key => exact Or.inl rfl
  | notifyLocalChange =>
    refine Or.inl ?_
    change (e.notifyLocalChange doc).marks = e.marks
    unfold notifyLocalChange
    split <;> rfl
  | notifyCursorMove =>
    refine Or.inl ?_
    change (e.notifyCursorMove doc).marks = e.marks
    unfold notifyCursorMove
    split <;> rfl
  | notifyCredentialsChanged reason => exact Or.inl (congrArg Prod.fst (scene_trySend rfl))
  | notifyTitleChanged title => exact Or.inl (congrArg Prod.fst (scene_trySend rfl))

theorem scene_sendCursor : (e.sendCursor doc).scene = e.scene := by
  unfold sendCursor
  dsimp only
  split
  · rfl
  · split
    · exact scene_record_of_none rfl
    · exact (scene_trySend rfl).trans (scene_record_of_none rfl)

/-- What a move does about the scene. -/
theorem step_marks {m : EngineMove} (h : e.step doc m = some e') :
    Brings e m ∧ e'.marks = e.marks ++ [.applied] ∨
      ¬ Brings e m ∧ (e'.marks = e.marks ∨ e'.marks = e.marks ++ [.asked]) := by
  cases m with
  | call call =>
    obtain rfl := Option.some.inj h
    exact Or.inr ⟨id, marks_perform call⟩
  | job job =>
    by_cases hmessage : ∃ socket event, job = .message socket event
    · obtain ⟨socket, event, rfl⟩ := hmessage
      obtain ⟨-, heq⟩ := Option.ite_none_right_eq_some.mp h
      obtain rfl := Option.some.inj heq
      exact marks_receive socket event
    · have hother : ∀ socket event, job ≠ .message socket event :=
        fun socket event heq => hmessage ⟨socket, event, heq⟩
      refine Or.inr ⟨?_, Or.inl (quiet_run hother h).marks⟩
      cases job with
      | message socket event => exact absurd rfl (hother socket event)
      | _ => exact id
  | fired timer =>
    refine Or.inr ⟨id, Or.inl ?_⟩
    obtain ⟨callback, -, rfl⟩ := Option.map_eq_some_iff.mp h
    cases callback with
    | flushOutgoing => exact congrArg Prod.fst scene_flushOutgoing
    | sendCursor => exact congrArg Prod.fst scene_sendCursor
  | settled n value =>
    obtain ⟨k, hk, rfl⟩ := Option.map_eq_some_iff.mp h
    cases value with
    | none => exact Or.inr ⟨id, Or.inl rfl⟩
    | some value =>
      have hscene := scene_resume (e := { e with pending := e.pending.filter (·.1 ≠ n) }) (n := n)
        value k
      obtain ⟨⟨adapter, rfl⟩, happlied⟩ | ⟨hk', hsame⟩ := hscene
      · exact Or.inl ⟨⟨adapter, hk⟩, congrArg Prod.fst happlied⟩
      · refine Or.inr ⟨?_, Or.inl (congrArg Prod.fst hsame)⟩
        rintro ⟨adapter, hadapter⟩
        exact hk' adapter (Option.some.inj (hk.symm.trans hadapter))

/-- After a move, exactly if it was awaited, the engine has still applied nothing but what it
had asked for. -/
theorem appliesOwn_step_iff {m : EngineMove} (h : AppliesOwn e) (hstep : e.step doc m = some e') :
    AppliesOwn e' ↔ Awaited e m := by
  unfold AppliesOwn Awaited Unanswered
  obtain ⟨hbrings, hmarks⟩ | ⟨hbrings, hsame | hasked⟩ := step_marks hstep
  · rw [hmarks, Mark.paired_concat]
    exact ⟨fun hpaired _ => hpaired.2 rfl, fun hawaited => ⟨h, fun _ => hawaited hbrings⟩⟩
  · rw [hsame]
    exact iff_of_true h fun hb => absurd hb hbrings
  · rw [hasked, Mark.paired_concat]
    exact iff_of_true ⟨h, by simp⟩ fun hb => absurd hb hbrings

/-! ### Runs -/

instance (e : CollabEngine) : Decidable e.Unanswered := by
  unfold Unanswered
  infer_instance

theorem brings_settled_iff {value : String} : Brings e (.settled n (some value)) ↔
    (e.pending.lookup n).any (fun k => k matches .sceneInit _) = true := by
  simp only [Brings]
  cases e.pending.lookup n with
  | none => simp
  | some k => cases k <;> simp

instance (e : CollabEngine) (m : EngineMove) : Decidable (Brings e m) := by
  induction m using EngineMove.casesOn with
  | call call => exact .isFalse id
  | fired timer => exact .isFalse id
  | settled n value =>
    induction value using Option.casesOn with
    | none => exact .isFalse id
    | some value => exact decidable_of_iff _ brings_settled_iff.symm
  | job job =>
    induction job using Job.casesOn with
    | message socket event =>
      obtain ⟨eventId, fromClientId, event⟩ := event
      induction event using Event.casesOn with
      | sceneInitResponse response => exact inferInstanceAs (Decidable (_ ∧ _))
      | _ => exact .isFalse id
    | _ => exact .isFalse id

instance (e : CollabEngine) (m : EngineMove) : Decidable (Awaited e m) := by
  unfold Awaited
  infer_instance

end CollabEngine

namespace Network

variable {ι : Type} [DecidableEq ι]

/-- In every run of the relay and its engines, each engine applies throughout only what it asked
for exactly when every snapshot that comes to an engine is awaited. -/
theorem appliesOwn_iff (w : Surroundings ι) (maxPeers : Int)
    (engine : ι → CollabClientOptions × Nat × Option Nat) (ms : List (NetworkMove ι))
    {t : Network ι}
    (hrun : Machine.exec (step w) (start maxPeers engine) ms = some t) :
    Machine.Throughout (step w) (fun s => ∀ x, (s.engine x).AppliesOwn) (start maxPeers engine) ms ↔
      Machine.Guarded (step w) (EngineGuard w CollabEngine.Awaited) (start maxPeers engine) ms := by
  have hstart : ∀ x, ((start maxPeers engine).engine x).AppliesOwn := by
    intro x before after heq
    exact absurd heq (by simp [start, CollabEngine.start, CollabEngine.marks])
  exact throughout_iff (fun _ h => h)
    (fun _ _ _ _ h hG hstep => (CollabEngine.appliesOwn_step_iff h hstep).mpr hG)
    (fun _ _ _ _ h hstep happlies => (CollabEngine.appliesOwn_step_iff h hstep).mp happlies)
    hstart hrun

/-- The second of two engines gets its adapter when it has joined, and asks for the scene. -/
def requested (n : Nat) [NeZero n] : List (NetworkMove (Fin n)) :=
  [.engine (Fin.ofNat n 1) (.call (.setAdapter (some 0)))] ++
    handle (Fin.ofNat n 1) .sceneInitRequest 9

/-- It gets the snapshot of the first. -/
theorem appliesOwn_requested : ∃ ms t,
    Machine.exec (step (.plain 2)) (start 10 fun x => ({}, 5, if x = 1 then none else some 0)) ms =
      some t ∧ (t.engine 1).marks = [.asked, .applied] ∧
    Machine.Throughout (step (.plain 2)) (fun s => ∀ x, (s.engine x).AppliesOwn)
      (start 10 fun x => ({}, 5, if x = 1 then none else some 0)) ms := by
  have hrun : (Machine.execIf (step (.plain 2)) (EngineGuard (.plain 2) CollabEngine.Awaited)
      (start 10 fun x => ({}, 5, if x = 1 then none else some 0))
      (List.flatten [join 0 (plainParams true) 20, join 1 (plainParams false) 21, requested 2,
        pass 0 "u", pass 0 "u", handle 0 (.sceneInitResponse { payload := "snapshot" }) 9,
        pass 1 "uuuu"])).any
      (fun t => (t.engine 1).marks = [.asked, .applied]) = true := by
    decide +kernel
  obtain ⟨t, ht, hmarks⟩ := (Option.any_eq_true _ _).mp hrun
  obtain ⟨hguarded, ht⟩ := Machine.execIf_eq_some ht
  exact ⟨_, t, ht, of_decide_eq_true hmarks, (appliesOwn_iff _ _ _ _ ht).mpr hguarded⟩

/-- A third engine, which was initialized and asked nobody, gets it too, and applies it. -/
theorem applied_unasked : ¬ ∀ (ι : Type) [DecidableEq ι] (w : Surroundings ι) (maxPeers : Int)
    (engine : ι → CollabClientOptions × Nat × Option Nat) (ms : List (NetworkMove ι))
    (t : Network ι), Machine.exec (step w) (start maxPeers engine) ms = some t →
      ∀ x, (t.engine x).AppliesOwn := by
  intro h
  have hrun : (Machine.exec (step (.plain 3))
      (start 10 fun x => ({}, 5, if x = 1 then none else some 0))
      (List.flatten [join 0 (plainParams true) 20, join 1 (plainParams false) 21, requested 3,
        join 2 (plainParams false) 23, pass 0 "u", pass 0 "u",
        handle 0 (.sceneInitResponse { payload := "snapshot" }) 11, pass 2 "uuuuuuuu"])).any
          (fun t => (t.engine 2).marks = [.applied]) = true := by
    decide +kernel
  obtain ⟨t, ht, hmarks⟩ := (Option.any_eq_true _ _).mp hrun
  have happlied : (t.engine 2).marks = [] ++ .applied :: [] := of_decide_eq_true hmarks
  exact absurd (h _ _ _ _ _ t ht 2 [] [] happlied) (by simp)

end Network

end MassRelay.Ts

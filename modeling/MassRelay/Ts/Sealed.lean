import MassRelay.Ts.Order

/-!
# MassRelay.Ts.Sealed

What an engine with a key sends.

The key is read anew at every `await`, so it may change, or go, while a call is under way. What
the call has encrypted by then is in its continuation, and what it has not waits behind the element
that it is at (`Continuation.Sealed`). A call that finds no key there ends, as `encryptPayload`
throws. So a call that found a key when it started sends nothing in the clear, whatever becomes of
the key (`sealed_run`).

What counts as an output of `encryptPayload` is left open: it is whatever its promises resolve to
in the run (`Honest`).
-/

namespace MassRelay.Ts

variable {Output : String → Prop}

/-- All that there is to read in the elements is output. -/
def SealedScene (Output : String → Prop) (elements : List ElementUpdate) : Prop :=
  ∀ element ∈ elements, element.data ≠ "" → Output element.data

/-- All that there is to read in a message is output. -/
def Sealed (Output : String → Prop) : Action → Prop
  | .sceneUpdate su => SealedScene Output su.elements
  | .textUpdate tu => Output tu.text
  | .sceneInitResponse response => Output response.payload
  | _ => True

/-- What the call has in hand to send is output. -/
def Continuation.Sealed (Output : String → Prop) : Continuation → Prop
  | .outgoingScene done _ _ => SealedScene Output done
  | _ => True

/-- The promise is one of `encryptPayload`. -/
def Continuation.encrypts : Continuation → Bool
  | .snapshot | .outgoingScene .. | .outgoingText _ => true
  | .scene .. | .text .. | .sceneInit _ => false

theorem SealedScene.append {done : List ElementUpdate} {element : ElementUpdate}
    (h : SealedScene Output done) (helement : element.data ≠ "" → Output element.data) :
    SealedScene Output (done ++ [element]) := by
  intro x hx hdata
  obtain hx | hx := List.mem_append.mp hx
  · exact h x hx hdata
  · obtain rfl := List.mem_singleton.mp hx
    exact helement hdata

namespace CollabEngine

variable {doc : Document} {e e' e'' : CollabEngine} {n : Nat} {keyed : Prop}

/-- A promise of `encryptPayload` resolves to an output. -/
def Honest (Output : String → Prop) (e : CollabEngine) : EngineMove → Prop
  | .settled n (some value) => ∀ k, e.pending.lookup n = some k → k.encrypts = true → Output value
  | _ => True

/-! ### What a call does -/

/-- None of the asynchronous calls does anything but end. -/
structure Uncalled (e e' : CollabEngine) : Prop where
  log : Logs (fun x => x.1 = none) e e'
  pending : ∀ x ∈ e'.pending, x ∈ e.pending

namespace Uncalled

theorem of_eq (hlog : e'.log = e.log) (hpending : e'.pending = e.pending) : Uncalled e e' :=
  ⟨.of_eq hlog, fun _ hx => hpending ▸ hx⟩

theorem of_still (h : Still e e') : Uncalled e e' := ⟨h.log, fun _ hx => h.pending ▸ hx⟩

theorem refl (e : CollabEngine) : Uncalled e e := of_eq rfl rfl

theorem trans (h : Uncalled e e') (h' : Uncalled e' e'') : Uncalled e e'' :=
  ⟨h.log.trans h'.log, fun x hx => h.pending x (h'.pending x hx)⟩

/-- A call of the application starts none. -/
theorem perform (call : EngineCall) :
    Uncalled e (e.perform doc call) ∧ (e.perform doc call).started = e.started := by
  by_cases hkey : ∃ key, call = .setEncryptionKey key
  · obtain ⟨key, rfl⟩ := hkey
    exact ⟨of_eq rfl rfl, rfl⟩
  · have hstill : Still e (e.perform doc call) := still_perform fun key heq => hkey ⟨key, heq⟩
    exact ⟨of_still hstill, hstill.started⟩

end Uncalled

/-- Of the calls at most the `n`-th does something, and if it is `keyed` nothing in the clear. -/
structure Acts (Output : String → Prop) (n : Nat) (keyed : Prop) (e e' : CollabEngine) : Prop where
  log : Logs (fun x => ∀ j, x.1 = some j → j = n ∧
    (keyed → ∀ action, x.2 = .send action → Sealed Output action)) e e'
  pending : ∀ x ∈ e'.pending, x ∈ e.pending ∨ x.1 = n ∧ (keyed → x.2.Sealed Output)

theorem Uncalled.acts (h : Uncalled e e') : Acts Output n keyed e e' :=
  ⟨h.log.mono fun x hx j hj => by simp [hx] at hj, fun x hx => Or.inl (h.pending x hx)⟩

namespace Acts

theorem refl (e : CollabEngine) : Acts Output n keyed e e := (Uncalled.refl e).acts

theorem trans (h : Acts Output n keyed e e') (h' : Acts Output n keyed e' e'') :
    Acts Output n keyed e e'' :=
  ⟨h.log.trans h'.log, fun x hx => (h'.pending x hx).elim (h.pending x) Or.inr⟩

theorem begin (e : CollabEngine) : Acts Output n keyed e e.begin :=
  (Uncalled.of_eq rfl rfl : Uncalled e e.begin).acts

theorem record {effect : Effect}
    (h : keyed → ∀ action, effect = .send action → Sealed Output action) :
    Acts Output n keyed e (e.record (some n) effect) := by
  refine ⟨⟨[(some n, effect)], rfl, fun x hx j hj => ?_⟩, fun _ hx => Or.inl hx⟩
  obtain rfl := List.mem_singleton.mp hx
  exact ⟨(Option.some.inj hj).symm, h⟩

theorem call (adapter : Nat) (call : AdapterCall) :
    Acts Output n keyed e (e.record (some n) (.call adapter call)) :=
  record fun _ _ h => by simp at h

theorem trySend {action : Action} (h : keyed → Sealed Output action) :
    Acts Output n keyed e (e.trySend (some n) action) := by
  by_cases hsend : e.CanSend
  · rw [trySend_of_canSend hsend]
    have hclient : Uncalled e { e with client := e.client.sendOn action } := .of_eq rfl rfl
    refine hclient.acts.trans (record fun hkeyed action' heq => ?_)
    obtain rfl := Effect.send.inj heq
    exact h hkeyed
  · rw [trySend_of_not hsend]
    exact refl e

theorem await {k : Continuation} (h : keyed → k.Sealed Output) :
    Acts Output n keyed e (e.await n k) := by
  refine ⟨.of_eq rfl, fun x hx => ?_⟩
  refine (List.mem_append.mp hx).imp id fun hx => ?_
  obtain rfl := List.mem_singleton.mp hx
  exact ⟨rfl, h⟩

theorem decryptScene {adapter : Nat} (fromClientId : String) (done todo : List ElementUpdate) :
    Acts Output n keyed e (e.decryptScene n adapter fromClientId done todo) := by
  induction todo generalizing done with
  | nil => exact call adapter _
  | cons element todo ih =>
    unfold CollabEngine.decryptScene
    split
    · exact ih _
    · split
      · exact await fun _ => trivial
      · exact refl e

/-- The loop sends its elements when it is through with them, and each is output by then. -/
theorem encryptScene {done : List ElementUpdate} (h : keyed → SealedScene Output done)
    (todo : List ElementUpdate) : Acts Output n keyed e (e.encryptScene n done todo) := by
  induction todo generalizing done with
  | nil => exact trySend h
  | cons element todo ih =>
    unfold CollabEngine.encryptScene
    split
    · rename_i hplain
      exact ih fun hkeyed => (h hkeyed).append fun hdata => absurd hplain hdata
    · split
      · exact await h
      · exact refl e

theorem applySceneInit {adapter : Nat} (payload : String) :
    Acts Output n keyed e (e.applySceneInit n adapter payload) := by
  have hstate : Uncalled (e.record n (.call adapter (.applySceneInit payload)))
      (e.applySceneInit n adapter payload) := .of_eq rfl rfl
  exact (call adapter _).trans hstate.acts

/-- A sync event that finds a key. -/
theorem syncEvent (event : CollabEvent) :
    Acts Output n (e.encryptionKey.isSome = true) e (e.syncEvent doc n event) := by
  unfold CollabEngine.syncEvent
  split
  · exact refl e
  · rename_i adapter _
    split
    · split
      · exact decryptScene _ _ _
      · exact call _ _
    · split
      · exact await fun _ => trivial
      · exact call _ _
    · split
      · exact refl e
      · exact call _ _
    · dsimp only
      generalize (if _ = "" then _ else _ : String) = payload
      split
      · exact await fun _ => trivial
      · exact applySceneInit _
    · dsimp only
      split
      · refine (call adapter .getSceneSnapshot).trans ?_
        split
        · exact await fun _ => trivial
        · rename_i hnokey
          exact trySend fun hkey => absurd hkey hnokey
      · exact refl e
    · exact refl e

/-- An update for which there is a key. -/
theorem sendOutgoing (update : OutgoingUpdate) :
    Acts Output n (e.encryptionKey.isSome = true) e (e.sendOutgoing n update) := by
  cases update with
  | sceneUpdate su =>
    unfold CollabEngine.sendOutgoing
    dsimp only
    split
    · exact encryptScene (fun _ _ hx => absurd hx List.not_mem_nil) _
    · rename_i hnokey
      exact trySend fun hkey => absurd hkey hnokey
  | textUpdate tu =>
    unfold CollabEngine.sendOutgoing
    dsimp only
    split
    · exact await fun _ => trivial
    · rename_i hnokey
      exact trySend fun hkey => absurd hkey hnokey

theorem flushOutgoing :
    Acts Output e.started (e.encryptionKey.isSome = true) e (e.flushOutgoing doc) := by
  refine (begin e).trans ?_
  unfold CollabEngine.flushOutgoing
  dsimp only
  split
  · exact refl _
  · rename_i adapter _
    split
    · exact refl _
    · generalize doc.computeOutgoing e.begin = update
      have hcall : Acts Output e.started (e.encryptionKey.isSome = true) e.begin
        (e.begin.record e.started (.call adapter (.computeOutgoing update))) := call _ _
      cases update with
      | none => exact hcall
      | some update =>
        exact hcall.trans
          (sendOutgoing (e := e.begin.record e.started (.call adapter (.computeOutgoing _))) update)

/-- A call goes on with the value that it waited for. -/
theorem resume (value : String) (k : Continuation) :
    Acts Output n (k.Sealed Output ∧ (k.encrypts = true → Output value)) e
      (e.resume n value k) := by
  cases k with
  | scene => exact decryptScene _ _ _
  | text => exact call _ _
  | sceneInit => exact applySceneInit _
  | snapshot => exact trySend fun h => h.2 rfl
  | outgoingScene done element todo =>
    exact encryptScene (fun h => h.1.append fun _ => h.2 rfl) todo
  | outgoingText => exact trySend fun h => h.2 rfl

theorem handleSyncEvent (event : CollabEvent) :
    Acts Output e.started (e.encryptionKey.isSome = true) e (e.handleSyncEvent doc event) :=
  (begin e).trans (syncEvent (e := e.begin) event)

end Acts

theorem started_handleSyncEvent (event : CollabEvent) :
    (e.handleSyncEvent doc event).started = e.started + 1 := (turn_syncEvent event).started

/-! ### One move -/

/-- What a move does: at most one call acts, a new one with the key that there is, or one that
waited for the value. -/
inductive Moved (Output : String → Prop) (e : CollabEngine) : EngineMove → CollabEngine → Prop
  | still (m : EngineMove) (e' : CollabEngine) (h : Uncalled e e')
      (hstarted : e'.started = e.started) : Moved Output e m e'
  | next (m : EngineMove) (e' : CollabEngine)
      (h : Acts Output e.started (e.encryptionKey.isSome = true) e e')
      (hstarted : e'.started = e.started + 1) : Moved Output e m e'
  | goesOn (n : Nat) (value : String) (k : Continuation) (e' : CollabEngine)
      (hk : e.pending.lookup n = some k)
      (h : Acts Output n (k.Sealed Output ∧ (k.encrypts = true → Output value)) e e')
      (hstarted : e'.started = e.started) : Moved Output e (.settled n (some value)) e'

/-- A sync event after something else. -/
theorem handleSyncEvent_moved {e₁ : CollabEngine} (m : EngineMove) (event : CollabEvent)
    (h : Uncalled e e₁) (hstarted : e₁.started = e.started)
    (hkey : e₁.encryptionKey = e.encryptionKey) :
    Moved Output e m (e₁.handleSyncEvent doc event) := by
  have hacts : Acts Output e₁.started (e₁.encryptionKey.isSome = true) e₁
      (e₁.handleSyncEvent doc event) := .handleSyncEvent event
  rw [hstarted, hkey] at hacts
  exact .next m _ (h.acts.trans hacts) ((started_handleSyncEvent event).trans (by rw [hstarted]))

theorem onEvent_moved (m : EngineMove) (event : CollabEvent) :
    Moved Output e m (e.onEvent doc event) := by
  unfold onEvent
  split
  · rename_i rj _
    have henter : Uncalled e (e.enterRoom rj) := .of_eq rfl rfl
    dsimp only
    split
    · split
      · exact .still _ _ henter rfl
      · rename_i e₁ htrigger
        have hstill := still_triggerSceneInit htrigger
        exact handleSyncEvent_moved m event (henter.trans (.of_still hstill)) hstill.started
          hstill.encryptionKey
    · exact handleSyncEvent_moved m event henter rfl rfl
  · exact handleSyncEvent_moved m event (.refl e) rfl rfl

theorem receive_moved (socket : Nat) (event : CollabEvent) :
    Moved Output e (.job (.message socket event)) (e.receive doc event) := by
  have haside : Aside (e.onEvent doc event) (e.receive doc event) := receive_aside event
  have hafter : Uncalled (e.onEvent doc event) (e.receive doc event) := .of_still haside.still
  generalize hm : EngineMove.job (.message socket event) = m
  have hmoved : Moved Output e m (e.onEvent doc event) := onEvent_moved m event
  cases hmoved with
  | still m e' h hstarted => exact .still _ _ (h.trans hafter) (haside.started.trans hstarted)
  | next m e' h hstarted => exact .next _ _ (h.trans hafter.acts) (haside.started.trans hstarted)
  | goesOn => simp at hm

theorem step_moved {m : EngineMove} (h : e.step doc m = some e') : Moved Output e m e' := by
  cases m with
  | call call =>
    obtain rfl := Option.some.inj h
    exact .still _ _ (Uncalled.perform call).1 (Uncalled.perform call).2
  | job job =>
    by_cases hmessage : ∃ socket event, job = .message socket event
    · obtain ⟨socket, event, rfl⟩ := hmessage
      obtain ⟨-, heq⟩ := Option.ite_none_right_eq_some.mp h
      obtain rfl := Option.some.inj heq
      exact receive_moved socket event
    · have hquiet := quiet_run (fun socket event heq => hmessage ⟨socket, event, heq⟩) h
      exact .still _ _ (.of_still hquiet.still) hquiet.started
  | fired timer =>
    have hclear : Uncalled e (e.expire timer) := .of_eq rfl rfl
    obtain ⟨callback, -, rfl⟩ := Option.map_eq_some_iff.mp h
    cases callback with
    | flushOutgoing =>
      have hturn : Turn e.started (e.expire timer).begin
          ((e.expire timer).flushOutgoing doc) :=
        turn_flushOutgoing (e := e.expire timer)
      exact .next _ _ (hclear.acts.trans (.flushOutgoing (e := e.expire timer))) hturn.started
    | sendCursor =>
      have hstill : Still (e.expire timer) ((e.expire timer).sendCursor doc) :=
        still_sendCursor
      exact .still _ _ (hclear.trans (.of_still hstill)) hstill.started
  | settled n value =>
    obtain ⟨k, hk, rfl⟩ := Option.map_eq_some_iff.mp h
    have hrest : Uncalled e { e with pending := e.pending.filter (·.1 ≠ n) } :=
      ⟨.of_eq rfl, fun _ hx => List.mem_of_mem_filter hx⟩
    cases value with
    | none => exact .still _ _ hrest rfl
    | some value =>
      exact .goesOn n value k _ hk (hrest.acts.trans (.resume value k))
        (turn_resume value k).started

/-! ### Runs -/

theorem mem_of_lookup {k : Continuation} (hk : e.pending.lookup n = some k) :
    (n, k) ∈ e.pending := by
  obtain ⟨before, after, heq, -⟩ := List.lookup_eq_some_iff.mp hk
  simp [heq]

/-- Nothing that the `n`-th call sent is in the clear, and nothing that it has in hand. -/
structure SealedCall (Output : String → Prop) (n : Nat) (e : CollabEngine) : Prop where
  sent : ∀ action, (some n, .send action) ∈ e.log → Sealed Output action
  waiting : ∀ k, (n, k) ∈ e.pending → k.Sealed Output

theorem SealedCall.acts {j : Nat} (h : SealedCall Output n e) (hacts : Acts Output j keyed e e')
    (hkeyed : j = n → keyed) : SealedCall Output n e' := by
  obtain ⟨⟨log, heq, hlog⟩, hpending⟩ := hacts
  refine ⟨fun action hmem => ?_, fun k hmem => ?_⟩
  · rw [heq] at hmem
    obtain hmem | hmem := List.mem_append.mp hmem
    · exact h.sent action hmem
    · obtain ⟨hj, hsealed⟩ := hlog _ hmem n rfl
      exact hsealed (hkeyed hj.symm) action rfl
  · obtain hmem | ⟨hj, hsealed⟩ := hpending _ hmem
    · exact h.waiting k hmem
    · exact hsealed (hkeyed hj.symm)

/-- Nothing is in the clear after a move that is honest, if the call is an old one or there is a
key. -/
theorem SealedCall.moved {m : EngineMove} (h : SealedCall Output n e)
    (hmoved : Moved Output e m e') (hhonest : Honest Output e m)
    (hn : n < e.started ∨ e.encryptionKey.isSome = true) : SealedCall Output n e' := by
  cases hmoved with
  | still _ _ hsame hstarted =>
    have hacts : Acts Output (n + 1) True e e' := hsame.acts
    exact h.acts hacts fun _ => trivial
  | next _ _ hacts hstarted => exact h.acts hacts fun heq => hn.resolve_left heq.not_gt
  | goesOn j value k _ hk hacts hstarted =>
    refine h.acts hacts ?_
    rintro rfl
    exact ⟨h.waiting k (mem_of_lookup hk), hhonest k hk⟩

theorem Moved.started {m : EngineMove} (h : Moved Output e m e') : e.started ≤ e'.started := by
  cases h with
  | still _ _ _ hstarted => exact hstarted.ge
  | next _ _ _ hstarted => omega
  | goesOn _ _ _ _ _ _ hstarted => exact hstarted.ge

/-- A call that a move starts where there is a key. -/
theorem sealedCall_next {m : EngineMove} (h : Numbered e) (hmoved : Moved Output e m e')
    (hkey : e.encryptionKey.isSome = true) (hn : e.started ≤ n) (hn' : n < e'.started) :
    SealedCall Output n e' := by
  have hnone : SealedCall Output n e := by
    refine ⟨fun action hmem => ?_, fun k hmem => ?_⟩
    · exact absurd (h.log _ hmem n rfl) hn.not_gt
    · exact absurd (h.pending _ hmem) hn.not_gt
  cases hmoved with
  | still _ _ _ hstarted => omega
  | next _ _ hacts _ => exact hnone.acts hacts fun _ => hkey
  | goesOn _ _ _ _ _ _ hstarted => omega

/-- In every run, what a call sends that found a key when it started is an output of
`encryptPayload`, whatever key there is later, or none. -/
theorem sealed_run (doc : Document) (Output : String → Prop) (options : CollabClientOptions)
    (maxRetries : Nat) (adapter : Option Nat) (before after : List EngineMove) (m : EngineMove)
    {e e' t : CollabEngine}
    (hreach : Machine.exec (step doc) (start options maxRetries adapter) before = some e)
    (hkey : e.encryptionKey ≠ none) (hstep : e.step doc m = some e')
    (hrun : Machine.exec (step doc) e' after = some t)
    (hhonest : Machine.Guarded (step doc) (Honest Output) e' after) {n : Nat} {action : Action}
    (hstarts : e.started ≤ n ∧ n < e'.started) (hsent : (some n, .send action) ∈ t.log) :
    Sealed Output action := by
  have hmoved : ∀ s m s', step doc s m = some s' → Moved Output s m s' :=
    fun _ _ _ hstep => step_moved hstep
  have hnumbered : Numbered e :=
    Machine.invariant_guarded (G := fun _ _ => True) (fun _ _ _ h _ hstep => h.step hstep)
      (numbered_start options maxRetries adapter)
      (Machine.guarded_of_forall fun _ _ _ => trivial) hreach
  have hsealed : SealedCall Output n e' :=
    sealedCall_next hnumbered (step_moved hstep) (Option.isSome_iff_ne_none.mpr hkey) hstarts.1
      hstarts.2
  have hall : n < t.started ∧ SealedCall Output n t :=
    Machine.invariant_guarded (I := fun s => n < s.started ∧ SealedCall Output n s)
      (fun s m s' h hG hstep => ⟨h.1.trans_le (hmoved s m s' hstep).started,
        h.2.moved (hmoved s m s' hstep) hG (Or.inl h.1)⟩)
      ⟨hstarts.2, hsealed⟩ hhonest hrun
  exact hall.2.sent action hsent

/-- An editor with two elements to send, and an empty one between them. -/
def drawing : Document where
  computeOutgoing _ := some (.sceneUpdate
    { elements := [⟨"a", 1, 0, "circle", false⟩, ⟨"b", 1, 0, "", true⟩,
        ⟨"c", 1, 0, "line", false⟩] })
  getSceneSnapshot _ := "snapshot"
  getCursorData _ := none

/-- It changes its key between the two, and has none when the second is encrypted. -/
theorem sealed_run_newKey : ∃ action : Action,
    (∃ su, action = .sceneUpdate su ∧ su.elements.map (·.data) = ["first", "", "second"]) ∧
    Sealed (fun s => s = "first" ∨ s = "second") action := by
  have hrun : (Machine.exec (step drawing) (start {} 5 (some 0))
      [.call (.connect (plainParams true)), .job (.opened 0),
        .job (.message 0 (joinedAs "a" "a" [])), .call (.setEncryptionKey (some 0)),
        .call .notifyLocalChange]).any (fun e => e.encryptionKey ≠ none ∧ e.started = 1 ∧
          (e.step drawing (.fired 0)).any (fun e' => e'.started = 2 ∧
            (Machine.exec (step drawing) e' [.call (.setEncryptionKey (some 1)),
              .settled 1 (some "first"), .call (.setEncryptionKey none),
              .settled 1 (some "second")]).any (fun t => (some 1, .send (.sceneUpdate
                { elements := [⟨"a", 1, 0, "first", false⟩, ⟨"b", 1, 0, "", true⟩,
                  ⟨"c", 1, 0, "second", false⟩] })) ∈ t.log))) = true := by
    decide +kernel
  obtain ⟨e, he, hstate⟩ := (Option.any_eq_true _ _).mp hrun
  obtain ⟨hkey, hone, hfired⟩ := of_decide_eq_true hstate
  obtain ⟨e', he', hstate⟩ := (Option.any_eq_true _ _).mp hfired
  obtain ⟨htwo, hafter⟩ := of_decide_eq_true hstate
  obtain ⟨t, ht, hsent⟩ := (Option.any_eq_true _ _).mp hafter
  refine ⟨_, ⟨_, rfl, rfl⟩, sealed_run drawing _ {} 5 (some 0) _ _ _ he hkey he' ht ?_
    (n := 1) ⟨by omega, by omega⟩ (of_decide_eq_true hsent)⟩
  refine Machine.guarded_of_forall fun m hm s => ?_
  simp only [List.mem_cons, List.not_mem_nil, or_false] at hm
  obtain rfl | rfl | rfl | rfl := hm
  · trivial
  · exact fun _ _ _ => Or.inl rfl
  · trivial
  · exact fun _ _ _ => Or.inr rfl

end CollabEngine

end MassRelay.Ts

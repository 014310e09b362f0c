import MassRelay.Ts.OwnSends
import MassRelay.Ts.Sealed

/-!
# MassRelay.Ts.Provenance

Where the updates of an engine come from.

Whatever an engine sends as an update was computed by its adapter, and whatever it applies came in
an event, but for the payloads, which go through the promises of `encryptPayload` and
`decryptPayload` (`Sourced`). In between, an update is in pieces: a call that waits has the
elements that it is through with, and the rest as it was.

What a promise makes of a payload is left open here (`Sources`).
-/

namespace MassRelay.Ts

def OutgoingUpdate.ofEvent? : Event → Option OutgoingUpdate
  | .sceneUpdate su => some (.sceneUpdate su)
  | .textUpdate tu => some (.textUpdate tu)
  | _ => none

section Via

variable (R : String → String → Prop)

/-- The same element, with what became of its data. An empty one has none. -/
def ElementVia (element element' : ElementUpdate) : Prop :=
  ∃ data, element' = { element with data } ∧
    if element.data = "" then data = "" else R element.data data

/-- The same update, with what became of its payloads. -/
def UpdateVia : OutgoingUpdate → OutgoingUpdate → Prop
  | .sceneUpdate su, .sceneUpdate su' => List.Forall₂ (ElementVia R) su.elements su'.elements
  | .textUpdate tu, .textUpdate tu' => ∃ text, tu' = { tu with text } ∧ R tu.text text
  | _, _ => False

variable {R}

theorem elementVia_of_empty {element : ElementUpdate} (h : element.data = "") :
    ElementVia R element element :=
  ⟨"", by rw [← h], by rw [if_pos h]⟩

theorem elementVia_of {element : ElementUpdate} {data : String} (hdata : element.data ≠ "")
    (h : R element.data data) : ElementVia R element { element with data } :=
  ⟨data, rfl, by rwa [if_neg hdata]⟩

/-- Where nothing becomes of a payload. -/
theorem updateVia_refl (h : ∀ p, R p p) (update : OutgoingUpdate) : UpdateVia R update update := by
  cases update with
  | sceneUpdate su =>
    refine List.forall₂_same.mpr fun element _ => ?_
    by_cases hdata : element.data = ""
    · exact elementVia_of_empty hdata
    · exact elementVia_of hdata (h _)
  | textUpdate tu => exact ⟨tu.text, rfl, h _⟩

end Via

/-- What a payload may become when it is encrypted, and when it is decrypted. -/
structure Channel where
  seals : String → String → Prop
  opens : String → String → Prop

namespace Channel

variable (ch : Channel)

/-- The value is what the promise may resolve to. -/
def Resolves (value : String) : Continuation → Prop
  | .scene _ _ _ element _ => ch.opens element.data value
  | .text _ _ tu => ch.opens tu.text value
  | .outgoingScene _ element _ => ch.seals element.data value
  | .outgoingText tu => ch.seals tu.text value
  | .sceneInit _ | .snapshot => True

/-- Without a key, payloads go as they are. -/
def Fits (key : Option Nat) : Prop := key = none → ∀ p, ch.seals p p ∧ ch.opens p p

end Channel

/-- What an adapter has computed, what was heard from whom, and what becomes of payloads. -/
structure Sources extends Channel where
  computed : OutgoingUpdate → Prop
  heard : String → OutgoingUpdate → Prop

namespace Sources

variable (S : Sources)

def Sends (update : OutgoingUpdate) : Prop :=
  ∃ computed, S.computed computed ∧ UpdateVia S.seals computed update

def Applies (clientId : String) (update : OutgoingUpdate) : Prop :=
  ∃ heard, S.heard clientId heard ∧ UpdateVia S.opens heard update

/-- The elements of a scene, of which the first are through. -/
def Partly (scene : List ElementUpdate → Prop) (R : String → String → Prop)
    (done todo : List ElementUpdate) : Prop :=
  ∃ before, scene (before ++ todo) ∧ List.Forall₂ (ElementVia R) before done

/-- What a call has in hand while it waits. -/
def Holds : Continuation → Prop
  | .scene _ clientId done element todo => element.data ≠ "" ∧
    Partly (fun elements => S.heard clientId (.sceneUpdate { elements })) S.opens done
      (element :: todo)
  | .text _ clientId tu => S.heard clientId (.textUpdate tu)
  | .outgoingScene done element todo => element.data ≠ "" ∧
    Partly (fun elements => S.computed (.sceneUpdate { elements })) S.seals done (element :: todo)
  | .outgoingText tu => S.computed (.textUpdate tu)
  | .sceneInit _ | .snapshot => True

variable {S} {scene : List ElementUpdate → Prop} {R : String → String → Prop}
variable {done todo : List ElementUpdate} {element : ElementUpdate}

theorem partly_nil {elements : List ElementUpdate} (h : scene elements) :
    Partly scene R [] elements := ⟨[], h, .nil⟩

theorem Partly.next {element' : ElementUpdate} (h : Partly scene R done (element :: todo))
    (hvia : ElementVia R element element') : Partly scene R (done ++ [element']) todo := by
  obtain ⟨before, hscene, hdone⟩ := h
  refine ⟨before ++ [element], by rwa [List.append_assoc], ?_⟩
  exact List.rel_append hdone (.cons hvia .nil)

theorem Partly.mono {scene' : List ElementUpdate → Prop}
    (hscene : ∀ elements, scene elements → scene' elements) (h : Partly scene R done todo) :
    Partly scene' R done todo := by
  obtain ⟨before, hbefore, hdone⟩ := h
  exact ⟨before, hscene _ hbefore, hdone⟩

theorem Partly.all (h : Partly scene R done []) :
    ∃ before, scene before ∧ List.Forall₂ (ElementVia R) before done := by
  obtain ⟨before, hscene, hdone⟩ := h
  exact ⟨before, by rwa [List.append_nil] at hscene, hdone⟩

/-- Anything is a source. -/
def any (ch : Channel) : Sources where
  toChannel := ch
  computed _ := True
  heard _ _ := True

/-- There are more sources. -/
structure Le (S S' : Sources) : Prop where
  channel : S'.toChannel = S.toChannel
  computed : ∀ update, S.computed update → S'.computed update
  heard : ∀ clientId update, S.heard clientId update → S'.heard clientId update

theorem le_any : S.Le (any S.toChannel) := ⟨rfl, fun _ _ => trivial, fun _ _ _ => trivial⟩

variable {S' : Sources}

theorem Sends.mono {update : OutgoingUpdate} (h : S.Sends update) (hle : S.Le S') :
    S'.Sends update := by
  obtain ⟨computed, hcomputed, hvia⟩ := h
  exact ⟨computed, hle.computed _ hcomputed, hle.channel ▸ hvia⟩

theorem Applies.mono {clientId : String} {update : OutgoingUpdate} (h : S.Applies clientId update)
    (hle : S.Le S') : S'.Applies clientId update := by
  obtain ⟨heard, hheard, hvia⟩ := h
  exact ⟨heard, hle.heard _ _ hheard, hle.channel ▸ hvia⟩

theorem Holds.mono {k : Continuation} (h : S.Holds k) (hle : S.Le S') : S'.Holds k := by
  cases k with
  | scene _ clientId _ _ _ =>
    obtain ⟨hdata, hpartly⟩ := h
    rw [← hle.channel] at hpartly
    exact ⟨hdata, hpartly.mono fun _ hheard => hle.heard _ _ hheard⟩
  | text _ clientId _ => exact hle.heard _ _ h
  | outgoingScene _ _ _ =>
    obtain ⟨hdata, hpartly⟩ := h
    rw [← hle.channel] at hpartly
    exact ⟨hdata, hpartly.mono fun _ hcomputed => hle.computed _ hcomputed⟩
  | outgoingText _ => exact hle.computed _ h
  | sceneInit _ | snapshot => trivial

end Sources

namespace CollabEngine

variable {S : Sources} {doc : Document} {e e' e'' : CollabEngine} {n : Nat}

/-! ### What a call does -/

/-- From the one to the other, the engine sends and applies what has a source, and so does what it
has in hand. -/
structure Traced (S : Sources) (e e' : CollabEngine) : Prop where
  asked : ∃ asked, e'.client.asked = e.client.asked ++ asked ∧
    ∀ command ∈ asked, ∀ update, command.update? = some update → S.Sends update
  log : ∃ log, e'.log = e.log ++ log ∧ ∀ n adapter clientId update,
    (some n, .call adapter (.applyRemote clientId update)) ∈ log → S.Applies clientId update
  pending : ∀ x ∈ e'.pending, x ∈ e.pending ∨ S.Holds x.2

namespace Traced

/-- What no asynchronous call does, without an update. -/
theorem of_uncalled (h : Uncalled e e') (hclient : e.client.Spares e'.client) : Traced S e e' := by
  obtain ⟨⟨log, heq, hlog⟩, hpending⟩ := h
  obtain ⟨asked, hasked, hnone⟩ := hclient
  refine ⟨⟨asked, hasked, fun command hmem update hupdate => ?_⟩,
    ⟨log, heq, fun n adapter clientId update hmem => ?_⟩, fun x hx => Or.inl (hpending x hx)⟩
  · simp [hnone command hmem] at hupdate
  · exact absurd (hlog _ hmem) (by simp)

theorem of_eq (hasked : e'.client.asked = e.client.asked) (hlog : e'.log = e.log)
    (hpending : e'.pending = e.pending) : Traced S e e' :=
  of_uncalled (.of_eq hlog hpending) (.of_eq hasked)

theorem refl (e : CollabEngine) : Traced S e e := of_eq rfl rfl rfl

theorem begin (e : CollabEngine) : Traced S e e.begin := of_eq rfl rfl rfl

theorem trans (h : Traced S e e') (h' : Traced S e' e'') : Traced S e e'' := by
  obtain ⟨⟨asked, hasked, hsends⟩, ⟨log, hlog, happlies⟩, hpending⟩ := h
  obtain ⟨⟨asked', hasked', hsends'⟩, ⟨log', hlog', happlies'⟩, hpending'⟩ := h'
  refine ⟨⟨asked ++ asked', by rw [hasked', hasked, List.append_assoc], fun command hmem => ?_⟩,
    ⟨log ++ log', by rw [hlog', hlog, List.append_assoc], fun n adapter clientId update hmem => ?_⟩,
    fun x hx => ?_⟩
  · exact (List.mem_append.mp hmem).elim (hsends command) (hsends' command)
  · exact (List.mem_append.mp hmem).elim (happlies n adapter clientId update)
      (happlies' n adapter clientId update)
  · exact (hpending' x hx).elim (hpending x) Or.inr

/-- A call of the adapter other than `applyRemote`. -/
theorem call {adapter : Nat} {call : AdapterCall}
    (h : ∀ clientId update, call ≠ .applyRemote clientId update) :
    Traced S e (e.record (some n) (.call adapter call)) := by
  refine ⟨⟨[], (List.append_nil _).symm, by simp⟩, ⟨[(some n, .call adapter call)], rfl, ?_⟩,
    fun _ hx => Or.inl hx⟩
  intro m adapter' clientId update hmem
  simp only [List.mem_singleton, Prod.mk.injEq, Effect.call.injEq] at hmem
  exact absurd hmem.2.2.symm (h clientId update)

theorem applyRemote {adapter : Nat} {clientId : String} {update : OutgoingUpdate}
    (h : S.Applies clientId update) :
    Traced S e (e.record (some n) (.call adapter (.applyRemote clientId update))) := by
  refine ⟨⟨[], (List.append_nil _).symm, by simp⟩,
    ⟨[(some n, .call adapter (.applyRemote clientId update))], rfl, ?_⟩, fun _ hx => Or.inl hx⟩
  intro m adapter' clientId' update' hmem
  simp only [List.mem_singleton, Prod.mk.injEq, Effect.call.injEq,
    AdapterCall.applyRemote.injEq] at hmem
  obtain ⟨-, -, rfl, rfl⟩ := hmem
  exact h

theorem trySend {action : Action}
    (h : ∀ update, OutgoingUpdate.ofAction? action = some update → S.Sends update) :
    Traced S e (e.trySend (some n) action) := by
  by_cases hsend : e.CanSend
  · rw [trySend_of_canSend hsend]
    refine ⟨?_, ⟨[(some n, .send action)], rfl, by simp⟩, fun _ hx => Or.inl hx⟩
    change ∃ asked, (e.client.sendOn action).asked = e.client.asked ++ asked ∧ _
    unfold CollabClient.sendOn
    split
    · exact ⟨[], (List.append_nil _).symm, by simp⟩
    · refine ⟨[.send _ action], rfl, fun command hmem => ?_⟩
      rw [List.mem_singleton.mp hmem]
      exact h
  · rw [trySend_of_not hsend]
    exact refl e

theorem await {k : Continuation} (h : S.Holds k) : Traced S e (e.await n k) := by
  refine ⟨⟨[], (List.append_nil _).symm, by simp⟩, ⟨[], (List.append_nil _).symm, by simp⟩,
    fun x hx => ?_⟩
  refine (List.mem_append.mp hx).imp id fun hx => ?_
  obtain rfl := List.mem_singleton.mp hx
  exact h

/-- The loop applies its elements when it is through with them. -/
theorem decryptScene {adapter : Nat} {clientId : String} {done todo : List ElementUpdate}
    (h : Sources.Partly (fun elements => S.heard clientId (.sceneUpdate { elements })) S.opens done
      todo) : Traced S e (e.decryptScene n adapter clientId done todo) := by
  induction todo generalizing done with
  | nil =>
    obtain ⟨before, hheard, hdone⟩ := h.all
    exact applyRemote ⟨.sceneUpdate { elements := before }, hheard, hdone⟩
  | cons element todo ih =>
    unfold CollabEngine.decryptScene
    split
    · rename_i hempty
      exact ih (h.next (elementVia_of_empty hempty))
    · rename_i hdata
      split
      · exact await ⟨hdata, h⟩
      · exact refl e

theorem encryptScene {done todo : List ElementUpdate}
    (h : Sources.Partly
      (fun elements => S.computed (.sceneUpdate { elements })) S.seals done todo) :
    Traced S e (e.encryptScene n done todo) := by
  induction todo generalizing done with
  | nil =>
    obtain ⟨before, hcomputed, hdone⟩ := h.all
    refine trySend fun update hupdate => ?_
    obtain rfl := Option.some.inj hupdate
    exact ⟨.sceneUpdate { elements := before }, hcomputed, hdone⟩
  | cons element todo ih =>
    unfold CollabEngine.encryptScene
    split
    · rename_i hempty
      exact ih (h.next (elementVia_of_empty hempty))
    · rename_i hdata
      split
      · exact await ⟨hdata, h⟩
      · exact refl e

theorem applySceneInit {adapter : Nat} (payload : String) :
    Traced S e (e.applySceneInit n adapter payload) := by
  have hcall : Traced S e (e.record (some n) (.call adapter (.applySceneInit payload))) :=
    call (by simp)
  exact hcall.trans (of_eq rfl rfl rfl)

/-- A sync event that was heard, if it is an update. -/
theorem syncEvent {event : CollabEvent}
    (hheard : ∀ update, OutgoingUpdate.ofEvent? event.event = some update →
      S.heard event.fromClientId update ∧ S.Fits e.encryptionKey) :
    Traced S e (e.syncEvent doc n event) := by
  have hplain : ¬ e.encryptionKey.isSome = true → S.Fits e.encryptionKey → ∀ p, S.opens p p :=
    fun hkey hfits p => (hfits (Option.not_isSome_iff_eq_none.mp hkey) p).2
  unfold CollabEngine.syncEvent
  split
  · exact refl e
  · rename_i adapter _
    split
    · rename_i su hevent
      rw [hevent] at hheard
      obtain ⟨hheard, hfits⟩ := hheard _ rfl
      split
      · exact decryptScene (Sources.partly_nil hheard)
      · rename_i hkey
        exact applyRemote ⟨_, hheard, updateVia_refl (hplain hkey hfits) _⟩
    · rename_i tu hevent
      rw [hevent] at hheard
      obtain ⟨hheard, hfits⟩ := hheard _ rfl
      split
      · exact await hheard
      · rename_i hkey
        exact applyRemote ⟨_, hheard, updateVia_refl (hplain hkey hfits) _⟩
    · split
      · exact refl e
      · exact call (by simp)
    · dsimp only
      generalize (if _ = "" then _ else _ : String) = payload
      split
      · exact await trivial
      · exact applySceneInit _
    · dsimp only
      split
      · have hcall : Traced S e (e.record (some n) (.call adapter .getSceneSnapshot)) :=
          call (by simp)
        refine hcall.trans ?_
        split
        · exact await trivial
        · exact trySend (by simp [OutgoingUpdate.ofAction?])
      · exact refl e
    · exact refl e

theorem handleSyncEvent {event : CollabEvent}
    (hheard : ∀ update, OutgoingUpdate.ofEvent? event.event = some update →
      S.heard event.fromClientId update ∧ S.Fits e.encryptionKey) :
    Traced S e (e.handleSyncEvent doc event) :=
  (begin e).trans (syncEvent (e := e.begin) hheard)

/-- An update that was computed. -/
theorem sendOutgoing {update : OutgoingUpdate} (hfits : S.Fits e.encryptionKey)
    (hcomputed : S.computed update) : Traced S e (e.sendOutgoing n update) := by
  have hplain : ¬ e.encryptionKey.isSome = true → S.Sends update := fun hkey =>
    ⟨update, hcomputed, updateVia_refl
      (fun p => (hfits (Option.not_isSome_iff_eq_none.mp hkey) p).1) update⟩
  cases update with
  | sceneUpdate su =>
    unfold CollabEngine.sendOutgoing
    dsimp only
    split
    · exact encryptScene (Sources.partly_nil hcomputed)
    · rename_i hkey
      exact trySend fun _ hupdate => Option.some.inj hupdate ▸ hplain hkey
  | textUpdate tu =>
    unfold CollabEngine.sendOutgoing
    dsimp only
    split
    · exact await hcomputed
    · rename_i hkey
      exact trySend fun _ hupdate => Option.some.inj hupdate ▸ hplain hkey

/-- A call goes on with a value that its promise may resolve to. -/
theorem resume {value : String} {k : Continuation} (h : S.Holds k) (hvalue : S.Resolves value k) :
    Traced S e (e.resume n value k) := by
  cases k with
  | scene adapter clientId done element todo =>
    exact decryptScene (h.2.next (elementVia_of h.1 hvalue))
  | text adapter clientId tu =>
    exact applyRemote ⟨.textUpdate tu, h, value, rfl, hvalue⟩
  | sceneInit => exact applySceneInit _
  | snapshot => exact trySend (by simp [OutgoingUpdate.ofAction?])
  | outgoingScene done element todo => exact encryptScene (h.2.next (elementVia_of h.1 hvalue))
  | outgoingText tu =>
    refine trySend fun update hupdate => ?_
    obtain rfl := Option.some.inj hupdate
    exact ⟨.textUpdate tu, h, value, rfl, hvalue⟩

end Traced

/-! ### One move -/

theorem callsSpare (doc : Document) : (page doc).CallsSpare := by
  intro callback e hevent
  refine CollabClient.Spares.of_eq (congrArg CollabClient.asked ?_)
  change (e.call doc callback).client = e.client
  cases callback with
  | onEvent event => simp [Callback.isEvent] at hevent
  | onPeerJoined | onPeerLeft | onErrorEvent =>
    unfold CollabEngine.call
    dsimp only
    split <;> rfl
  | onCredentialsChanged | onDisconnect | onSessionEnded => exact resetState_client
  | _ => rfl

theorem spares_send {origin : Option Nat} {action : Action}
    (haction : OutgoingUpdate.ofAction? action = none) (h : e.send origin action = some e') :
    e.client.Spares e'.client := by
  obtain ⟨-, -, rfl⟩ := send_eq_some.mp h
  exact .sendOn haction _

theorem spares_trySend {origin : Option Nat} {action : Action}
    (haction : OutgoingUpdate.ofAction? action = none) :
    e.client.Spares (e.trySend origin action).client := by
  unfold trySend
  cases h : e.send origin action with
  | none => exact .refl _
  | some e' => exact spares_send haction h

theorem spares_triggerSceneInit (h : e.triggerSceneInit = some e') :
    e.client.Spares e'.client := by
  obtain rfl | ⟨e₁, hsend, rfl⟩ := triggerSceneInit_cases h
  · exact .refl _
  · exact (spares_send rfl hsend : e.client.Spares e₁.client)

/-- A call of the application. -/
theorem spares_perform (call : EngineCall) : e.client.Spares (e.perform doc call).client := by
  cases call with
  | connect params =>
    change e.client.Spares ((e.connect doc params).getD (e.wire params)).client
    unfold connect Page.connect
    split
    · exact .refl _
    · exact CollabClient.Spares.trans (.of_eq rfl) (.openWithToken _)
  | disconnect => exact Page.Spares.disconnect (callsSpare doc) e
  | dispose =>
    change e.client.Spares (clearTimers doc _).client
    rw [clearTimers_client]
    split
    · exact Page.Spares.disconnect (callsSpare doc) { e with disposed := true }
    · exact .refl _
  | setAdapter adapter =>
    change e.client.Spares (e.setAdapter adapter).client
    unfold setAdapter
    dsimp only
    split
    · cases htrigger : triggerSceneInit { e with adapter } with
      | none => exact .refl _
      | some e₁ =>
        have hspares := spares_triggerSceneInit htrigger
        exact hspares
    · exact .refl _
  | setEncryptionKey key => exact .refl _
  | notifyLocalChange =>
    change e.client.Spares (e.notifyLocalChange doc).client
    unfold notifyLocalChange
    split <;> exact .refl _
  | notifyCursorMove =>
    change e.client.Spares (e.notifyCursorMove doc).client
    unfold notifyCursorMove
    split <;> exact .refl _
  | notifyCredentialsChanged reason => exact spares_trySend rfl
  | notifyTitleChanged title => exact spares_trySend rfl

theorem spares_sendCursor : e.client.Spares (e.sendCursor doc).client := by
  unfold sendCursor
  dsimp only
  split
  · exact .refl _
  · split
    · exact .refl _
    · exact spares_trySend rfl

/-- The client goes on with an event after `onEvent`. -/
theorem traced_afterEvent (event : CollabEvent) :
    Traced S (e.call doc (.onEvent event)) (e.receive doc event) := by
  refine .of_uncalled (.of_still (receive_aside event).still) ?_
  unfold receive
  split
  · exact .refl _
  · exact Page.Spares.handleEvent (callsSpare doc) event

theorem traced_onEvent {event : CollabEvent}
    (hheard : ∀ update, OutgoingUpdate.ofEvent? event.event = some update →
      S.heard event.fromClientId update ∧ S.Fits e.encryptionKey) :
    Traced S e (e.onEvent doc event) := by
  unfold onEvent
  split
  · rename_i rj hevent
    have henter : Traced S e (e.enterRoom rj) := .of_eq rfl rfl rfl
    have hsync : ∀ {e₁ : CollabEngine}, Traced S e₁ (e₁.handleSyncEvent doc event) :=
      fun {_} => .handleSyncEvent (by simp [hevent, OutgoingUpdate.ofEvent?])
    dsimp only
    split
    · split
      · exact henter
      · rename_i e₁ htrigger
        have htriggered : Traced S (e.enterRoom rj) e₁ :=
          .of_uncalled (.of_still (still_triggerSceneInit htrigger))
            (spares_triggerSceneInit htrigger)
        exact (henter.trans htriggered).trans hsync
    · exact henter.trans hsync
  · exact .handleSyncEvent hheard

/-! ### Runs -/

/-- The adapter has computed an update. -/
def Computed (e : CollabEngine) (update : OutgoingUpdate) : Prop :=
  ∃ n adapter, (n, .call adapter (.computeOutgoing (some update))) ∈ e.log

/-- The sources of what an engine has sent and applied. -/
def sources (ch : Channel) (heard : String → OutgoingUpdate → Prop) (e : CollabEngine) :
    Sources where
  toChannel := ch
  computed := e.Computed
  heard

variable {ch : Channel} {heard heard' : String → OutgoingUpdate → Prop}

/-- All that the engine has sent, applied and has in hand has a source. -/
structure Sourced (ch : Channel) (heard : String → OutgoingUpdate → Prop) (e : CollabEngine) :
    Prop where
  asked : ∀ command ∈ e.client.asked, ∀ update, command.update? = some update →
    (e.sources ch heard).Sends update
  log : ∀ n adapter clientId update,
    (some n, .call adapter (.applyRemote clientId update)) ∈ e.log →
      (e.sources ch heard).Applies clientId update
  pending : ∀ x ∈ e.pending, (e.sources ch heard).Holds x.2

theorem Sourced.hear (h : Sourced ch heard e)
    (hheard : ∀ clientId update, heard clientId update → heard' clientId update) :
    Sourced ch heard' e := by
  have hle : (e.sources ch heard).Le (e.sources ch heard') := ⟨rfl, fun _ h => h, hheard⟩
  exact ⟨fun command hmem update hupdate => (h.asked command hmem update hupdate).mono hle,
    fun n adapter clientId update hmem => (h.log n adapter clientId update hmem).mono hle,
    fun x hx => (h.pending x hx).mono hle⟩

theorem Traced.computed (h : Traced S e e') {update : OutgoingUpdate}
    (hcomputed : e.Computed update) :
    e'.Computed update := by
  obtain ⟨log, heq, -⟩ := h.log
  obtain ⟨n, adapter, hmem⟩ := hcomputed
  exact ⟨n, adapter, heq ▸ List.mem_append_left log hmem⟩

theorem Traced.sourced (h : Sourced ch heard e) (htraced : Traced (e'.sources ch heard) e e') :
    Sourced ch heard e' := by
  have hle : (e.sources ch heard).Le (e'.sources ch heard) :=
    ⟨rfl, fun _ hcomputed => htraced.computed hcomputed, fun _ _ h => h⟩
  obtain ⟨⟨asked, hasked, hsends⟩, ⟨log, hlog, happlies⟩, hpending⟩ := htraced
  refine ⟨fun command hmem update hupdate => ?_, fun n adapter clientId update hmem => ?_,
    fun x hx => ?_⟩
  · rw [hasked] at hmem
    rcases List.mem_append.mp hmem with hmem | hmem
    · exact (h.asked command hmem update hupdate).mono hle
    · exact hsends command hmem update hupdate
  · rw [hlog] at hmem
    rcases List.mem_append.mp hmem with hmem | hmem
    · exact (h.log n adapter clientId update hmem).mono hle
    · exact happlies n adapter clientId update hmem
  · exact (hpending x hx).elim (fun hx => (h.pending x hx).mono hle) id

/-- Promises resolve to what they may, and what starts with an update finds the key it needs. -/
def Faithful (ch : Channel) (e : CollabEngine) : EngineMove → Prop
  | .settled n (some value) => ∀ k, e.pending.lookup n = some k → ch.Resolves value k
  | .fired timer => e.timers.lookup timer = some .flushOutgoing → ch.Fits e.encryptionKey
  | .job (.message _ event) => OutgoingUpdate.ofEvent? event.event ≠ none → ch.Fits e.encryptionKey
  | _ => True

/-- A flush ends at once, or with nothing to send, or sends what it has computed. -/
theorem flushOutgoing_cases (doc : Document) (e : CollabEngine) :
    e.flushOutgoing doc = e.begin ∨ ∃ adapter,
      e.flushOutgoing doc = e.begin.record e.started (.call adapter (.computeOutgoing none)) ∨
      ∃ update, e.flushOutgoing doc =
        (e.begin.record e.started (.call adapter (.computeOutgoing (some update)))).sendOutgoing
          e.started update := by
  unfold CollabEngine.flushOutgoing
  dsimp only
  split
  · exact Or.inl rfl
  · rename_i adapter _
    split
    · exact Or.inl rfl
    · refine Or.inr ⟨adapter, ?_⟩
      cases doc.computeOutgoing e.begin with
      | none => exact Or.inl rfl
      | some update => exact Or.inr ⟨update, rfl⟩

/-- A flush, where all that the adapter has computed by then is a source. -/
theorem Traced.flushOutgoing (hfits : S.Fits e.encryptionKey)
    (hcomputed : ∀ update, (e.flushOutgoing doc).Computed update → S.computed update) :
    Traced S e (e.flushOutgoing doc) := by
  have hcall : ∀ adapter update, Traced S e
      (e.begin.record e.started (.call adapter (.computeOutgoing update))) :=
    fun adapter update => (begin e).trans (call (by simp))
  obtain heq | ⟨adapter, heq | ⟨update, heq⟩⟩ := flushOutgoing_cases doc e
  · rw [heq]
    exact begin e
  · rw [heq]
    exact hcall adapter none
  · rw [heq] at hcomputed ⊢
    -- the update is on record when the flush is over
    have hlater : Traced (.any S.toChannel)
        (e.begin.record e.started (.call adapter (.computeOutgoing (some update))))
        ((e.begin.record e.started (.call adapter (.computeOutgoing (some update)))).sendOutgoing
          e.started update) :=
      sendOutgoing hfits trivial
    have hrecorded : (e.begin.record e.started
        (.call adapter (.computeOutgoing (some update)))).Computed update :=
      ⟨_, adapter, List.mem_append_right _ List.mem_cons_self⟩
    exact (hcall adapter (some update)).trans
      (sendOutgoing hfits (hcomputed update (hlater.computed hrecorded)))

/-- A faithful move, at which an event that is delivered was heard. -/
theorem Sourced.step {m : EngineMove} (h : Sourced ch heard e) (hfaithful : Faithful ch e m)
    (hheard : ∀ socket event, m = .job (.message socket event) →
      ∀ update, OutgoingUpdate.ofEvent? event.event = some update → heard event.fromClientId update)
    (hstep : e.step doc m = some e') : Sourced ch heard e' := by
  cases m with
  | call call =>
    obtain rfl := Option.some.inj hstep
    exact Traced.sourced h (.of_uncalled (Uncalled.perform call).1 (spares_perform call))
  | job job =>
    by_cases hmessage : ∃ socket event, job = .message socket event
    · obtain ⟨socket, event, rfl⟩ := hmessage
      obtain ⟨-, heq⟩ := Option.ite_none_right_eq_some.mp hstep
      obtain rfl := Option.some.inj heq
      exact Traced.sourced h
        (.trans (traced_onEvent fun update hupdate => ⟨hheard socket event rfl update hupdate,
          hfaithful (by simp [hupdate])⟩) (traced_afterEvent event))
    · have hother : ∀ socket event, job ≠ .message socket event :=
        fun socket event heq => hmessage ⟨socket, event, heq⟩
      refine Traced.sourced h (.of_uncalled (.of_still (quiet_run hother hstep).still) ?_)
      have hrun : (page doc).run job e = some e' := by
        cases job with
        | message socket event => exact absurd rfl (hother socket event)
        | _ => exact hstep
      exact Page.Spares.run (callsSpare doc) hother hrun
  | fired timer =>
    obtain ⟨callback, hcallback, rfl⟩ := Option.map_eq_some_iff.mp hstep
    cases callback with
    | flushOutgoing =>
      have hclear : Traced (((e.expire timer).flushOutgoing doc).sources ch heard) e
          (e.expire timer) := .of_eq rfl rfl rfl
      exact Traced.sourced h (hclear.trans (.flushOutgoing (hfaithful hcallback) fun _ h => h))
    | sendCursor =>
      have hclear : Uncalled e (e.expire timer) := .of_eq rfl rfl
      exact Traced.sourced h (.of_uncalled (hclear.trans (.of_still still_sendCursor))
        (spares_sendCursor (e := e.expire timer)))
  | settled n value =>
    obtain ⟨k, hk, rfl⟩ := Option.map_eq_some_iff.mp hstep
    have hrest : Sourced ch heard { e with pending := e.pending.filter (·.1 ≠ n) } :=
      ⟨h.asked, h.log, fun x hx => h.pending x (List.mem_of_mem_filter hx)⟩
    cases value with
    | none => exact hrest
    | some value =>
      generalize hrested : { e with pending := e.pending.filter (·.1 ≠ n) } = e₀ at hrest ⊢
      have hholds : (e₀.sources ch heard).Holds k := by
        rw [← hrested]
        exact h.pending _ (mem_of_lookup hk)
      have hlater : Traced (.any ch) e₀ (e₀.resume n value k) :=
        .resume (hholds.mono Sources.le_any) (hfaithful k hk)
      exact Traced.sourced hrest (.resume (hholds.mono
        ⟨rfl, fun _ hcomputed => hlater.computed hcomputed, fun _ _ h => h⟩) (hfaithful k hk))

end CollabEngine

end MassRelay.Ts

import MassRelay.Lib.Machine
import MassRelay.Ts.App
import MassRelay.Ts.Replica

/-!
# MassRelay.Ts.Goodbye

What is left of a client after `disconnect`.

A method of the client that calls the page goes on with what the callback left of the client.
`Return.Final` says which returns are harmless: a client that has no socket must not go on to
take an answer or a peer, and one whose page has left must not go on to reconnect. With no other
returns, a page that has left finds its client as it left it (`Calm`), whatever happens before
its next `connect`.
-/

namespace MassRelay.Ts

def Command.isOpen : Command → Bool
  | .open .. => true
  | _ => false

namespace Callback

def isPeerJoined : Callback → Bool
  | .onPeerJoined _ => true
  | _ => false

/-- A callback that tells of a connection, or of the end of one. -/
def reopens : Callback → Bool
  | .onConnect _ | .onReconnecting _ | .onSessionEnded _ => true
  | _ => false

end Callback

namespace CollabClient

def opens (c : CollabClient) : Nat := c.asked.countP Command.isOpen

/-- Whether the client comes back from the end of a session. -/
def comesBack (reason : String) (c : CollabClient) : Bool :=
  (reason = "slow_consumer" || (reason = "token_expired" && c.options.getToken)) &&
    c.reconnectEnabled

theorem comesBack_congr {reason : String} {c c' : CollabClient} (h : c'.options = c.options) :
    c'.comesBack reason = c.comesBack reason := by
  rw [comesBack, reconnectEnabled, h]
  rfl

end CollabClient

/-- The callback leaves the client so that the method which made it can go on. -/
def Return.Final (r : Return) : Prop :=
  match r.handling, r.fired with
  | some (.roomJoined _), [_] => r.client.grpc ≠ none
  | some (.roomJoined rj), fired =>
    r.client.grpc = none →
      ∀ entry ∈ rj.room.peers.drop (fired.countP Callback.isPeerJoined - 1), entry.2.clientId = ""
  | some (.peerJoined peer), [_] => r.client.grpc = none → peer.clientId = ""
  | some (.sessionEnded reason), [_] =>
    r.left = false ∧ (r.client.comesBack reason = true → r.gone = true →
      r.client.maxRetries ≤ r.client.retryCount)
  | some (.sessionEnded reason), [_, .onDisconnect] =>
    r.client.comesBack reason = true → r.gone = true → r.client.maxRetries ≤ r.client.retryCount
  | some (.error err), [_, _] =>
    r.left = true → err.code = "ROOM_NOT_FOUND" → r.client.hasJoined = false
  | _, _ => True

instance (r : Return) : Decidable r.Final := by
  unfold Return.Final
  split <;> infer_instance

/-- The peers that a client without a socket may still add have no ids. -/
theorem Return.Final.peers {rj : RoomJoined} {fired : List Callback} {c : CollabClient}
    {gone left : Bool} (h : Return.Final ⟨some (.roomJoined rj), fired, c, gone, left⟩)
    (hlength : 2 ≤ fired.length) (hnone : c.grpc = none) :
    ∀ entry ∈ rj.room.peers.drop (fired.countP Callback.isPeerJoined - 1),
      entry.2.clientId = "" := by
  match fired, hlength with
  | _ :: _ :: _, _ => exact h hnone

namespace App

variable {react : Callback → App → List AppCall} {n : Nat} {s t : App} {callback : Callback}

/-- A client without a socket has no room, and one whose page has left is at rest. -/
structure Calm (n : Nat) (s : App) : Prop where
  bare : s.client.grpc = none →
    s.client.isConnected = false ∧ s.client.clientId = "" ∧ s.client.peers = ∅
  gone : s.gone = true → s.client.grpc = none ∧ s.client.isConnecting = false ∧
    s.client.explicitDisconnect = true
  left : s.left = true → s.gone = true
  late : ∀ callback ∈ s.late, callback.reopens = false
  opened : s.left = true → s.client.opens = n

namespace Calm

theorem grpc_of_left (h : Calm n s) (hleft : s.left = true) : s.client.grpc = none :=
  (h.gone (h.left hleft)).1

/-- A change of a client that keeps its socket. -/
theorem set (h : Calm n s) {c : CollabClient} (hgrpc : c.grpc = s.client.grpc)
    (hconnected : c.isConnected = s.client.isConnected) (hid : c.clientId = s.client.clientId)
    (hpeers : s.client.grpc = none → s.client.peers = ∅ → c.peers = ∅)
    (hgone : s.gone = true → s.client.isConnecting = false → s.client.explicitDisconnect = true →
      c.isConnecting = false ∧ c.explicitDisconnect = true)
    (hopens : c.opens = s.client.opens) : Calm n { s with client := c } where
  bare := by
    intro hnone
    obtain ⟨hdown, hempty, hnobody⟩ := h.bare (hgrpc ▸ hnone)
    exact ⟨hconnected.trans hdown, hid.trans hempty, hpeers (hgrpc ▸ hnone) hnobody⟩
  gone := by
    intro hg
    obtain ⟨hnone, hconnecting, hexplicit⟩ := h.gone hg
    exact ⟨hgrpc.trans hnone, hgone hg hconnecting hexplicit⟩
  left := h.left
  late := h.late
  opened := fun hleft => hopens.trans (h.opened hleft)

/-- The client lets its socket go. -/
theorem reset (h : Calm n s) {c : CollabClient} (hgrpc : c.grpc = none)
    (hconnected : c.isConnected = false) (hconnecting : c.isConnecting = false)
    (hid : c.clientId = "") (hpeers : c.peers = ∅)
    (hexplicit : s.client.explicitDisconnect = true → c.explicitDisconnect = true)
    (hopens : c.opens = s.client.opens) : Calm n { s with client := c } where
  bare := fun _ => ⟨hconnected, hid, hpeers⟩
  gone := fun hg => ⟨hgrpc, hconnecting, hexplicit (h.gone hg).2.2⟩
  left := h.left
  late := h.late
  opened := fun hleft => hopens.trans (h.opened hleft)

theorem hear (h : Calm n s) (hcallback : callback.reopens = false ∨ s.left = false) :
    Calm n (s.hear callback) where
  bare := h.bare
  gone := h.gone
  left := h.left
  late := by
    intro callback' hmem
    rw [App.hear] at hmem
    split at hmem
    · rename_i hleft
      rcases List.mem_append.mp hmem with hold | hnew
      · exact h.late callback' hold
      · rw [List.mem_singleton.mp hnew]
        exact hcallback.resolve_right (by simp [hleft])
    · exact h.late callback' hmem
  opened := h.opened

end Calm

end App

namespace CollabClient

variable {c : CollabClient}

@[simp] theorem opens_close (grpc : Option Nat) : (c.close grpc).opens = c.opens := by
  cases grpc <;> simp [close, opens, Command.isOpen]

@[simp] theorem opens_setTimeout (delay : Nat) : (c.setTimeout delay).opens = c.opens := by
  simp [setTimeout, opens, Command.isOpen]

@[simp] theorem opens_stop : c.stop.opens = c.opens := by
  rw [stop_eq, opens, clearRetry]
  split <;> simp [opens, Command.isOpen]

@[simp] theorem opens_sendOn (action : Action) : (c.sendOn action).opens = c.opens := by
  unfold sendOn
  split <;> simp [opens, Command.isOpen]

@[simp] theorem opens_hangUp : c.hangUp.opens = c.opens := by
  unfold hangUp
  dsimp only
  split
  · refine (opens_close _).trans ?_
    exact opens_sendOn (c := c) _
  · exact opens_close _

end CollabClient

namespace App

variable {react : Callback → App → List AppCall} {n : Nat} {s t : App} {callback : Callback}

/-- The calls of a page keep it calm. -/
theorem Calm.connect (h : Calm n s) (args : ConnectArgs) (hdown : s.client.isConnected = false) :
    Calm n { s with
      client := (s.client.connect args).openWithToken
      found := s.found ++ [s.client]
      since := s.client.asked.length
      gone := false
      left := false } where
  bare := by
    intro hnone
    have hgrpc : s.client.grpc = none := by
      unfold CollabClient.openWithToken at hnone
      split at hnone
      · exact hnone
      · cases hnone
    obtain ⟨-, hempty, hnobody⟩ := h.bare hgrpc
    simpa [CollabClient.connect] using ⟨hdown, hempty, hnobody⟩
  gone := fun hg => nomatch hg
  left := fun hleft => nomatch hleft
  late := h.late
  opened := fun hleft => nomatch hleft

theorem Calm.stop (h : Calm n s) (hgrpc : s.client.stop.grpc = none) :
    Calm n { s with client := s.client.stop, gone := true } := by
  have hclient : s.client.grpc = none := by simpa [CollabClient.stop_eq] using hgrpc
  obtain ⟨hdown, hempty, hnobody⟩ := h.bare hclient
  exact
    { bare := fun _ => by simpa [CollabClient.stop_eq] using ⟨hdown, hempty, hnobody⟩
      gone := fun _ => by simpa [CollabClient.stop_eq] using hclient
      left := fun _ => rfl
      late := h.late
      opened := fun hleft => CollabClient.opens_stop.trans (h.opened hleft) }

theorem Calm.hangUp (h : Calm n s) :
    Calm n { s with client := s.client.stop.hangUp, gone := true } where
  bare := fun _ => by simp
  gone := fun _ => by simp [CollabClient.stop_eq]
  left := fun _ => rfl
  late := h.late
  opened := fun hleft => by simpa using h.opened hleft

/-- What a callback leaves is calm. -/
theorem Calm.call (h : Calm n s) (hcallback : callback.reopens = false ∨ s.left = false) :
    Calm n ((page react).call callback s) := by
  have hbegun : Calm n ({ s with fired := s.fired ++ [callback] }.hear callback) :=
    Calm.hear ⟨h.bare, h.gone, h.left, h.late, h.opened⟩ hcallback
  have hcall := call_keeps (P := Calm n)
    (fun _ args hs hdown => hs.connect args hdown) (fun _ hs hgrpc => hs.stop hgrpc)
    (fun _ hs _ => hs.hangUp) react (fun _ hs => hs.hear (Or.inl rfl)) callback hbegun
  exact ⟨hcall.bare, hcall.gone, hcall.left, hcall.late, hcall.opened⟩

/-- Every callback has left the client so that its method can go on. -/
def AllFinal (s : App) : Prop := ∀ r ∈ s.returned, r.Final

/-- With such callbacks the page is calm. -/
def Sound (n : Nat) (s : App) : Prop := s.AllFinal → Calm n s

theorem allFinal_of_call (hall : AllFinal ((page react).call callback s)) :
    AllFinal s ∧ Return.Final ⟨s.handling, s.fired ++ [callback],
      ((page react).call callback s).client, ((page react).call callback s).gone,
      ((page react).call callback s).left⟩ := by
  obtain ⟨-, -, hreturned⟩ := page_call_returned react callback s
  rw [AllFinal, hreturned] at hall
  exact ⟨fun r hr => hall r (List.mem_append_left _ hr),
    hall _ (List.mem_append_right _ List.mem_cons_self)⟩

theorem left_of_call (hleft : s.left = false) : ((page react).call callback s).left = false :=
  (call_sameJob react callback { s with fired := s.fired ++ [callback] }).left hleft

theorem comesBack_of_call {reason : String} :
    ((page react).call callback s).client.comesBack reason = s.client.comesBack reason :=
  CollabClient.comesBack_congr
    (call_sameJob react callback { s with fired := s.fired ++ [callback] }).options

theorem addPeer_record (react : Callback → App → List AppCall) (peer : PeerInfoJson) (s : App) :
    let t := (page react).addPeer peer s
    t.handling = s.handling ∧ t.fired = s.fired ++ [.onPeerJoined peer] ∧
      (t.AllFinal → s.AllFinal ∧ Return.Final
        ⟨s.handling, s.fired ++ [.onPeerJoined peer], t.client, t.gone, t.left⟩) := by
  obtain ⟨hhandling, hfired, -⟩ := page_call_returned react (.onPeerJoined peer)
    ((page react).modify (.setPeer peer) s)
  exact ⟨hhandling, hfired, allFinal_of_call⟩

namespace Sound

theorem call (h : Sound n s) (hcallback : s.AllFinal → callback.reopens = false ∨ s.left = false) :
    Sound n ((page react).call callback s) :=
  fun hall => (h (allFinal_of_call hall).1).call (hcallback (allFinal_of_call hall).1)

theorem endSession (h : Sound n s) (hleft : s.AllFinal → s.left = false) (reason : String) :
    Sound n ((page react).endSession reason s) := by
  have hset : Sound n ((page react).modify
      (fun c => { c with explicitDisconnect := true, isConnecting := false }) s) :=
    fun hall => (h hall).set rfl rfl rfl (fun _ => id) (fun _ _ _ => ⟨rfl, rfl⟩) rfl
  exact hset.call fun hall => Or.inr (hleft hall)

theorem scheduleReconnect (h : Sound n s) (hleft : s.AllFinal → s.left = false)
    (hgone : s.AllFinal → s.gone = true → s.client.maxRetries ≤ s.client.retryCount) :
    Sound n ((page react).scheduleReconnect s) := by
  unfold Page.scheduleReconnect
  split
  · exact h.endSession hleft _
  · rename_i hretries
    have hset : Sound n ((page react).modify (fun c => { c with
        retryCount := s.client.retryCount + 1, isConnecting := true }) s) :=
      fun hall => (h hall).set rfl rfl rfl (fun _ => id)
        (fun hg => absurd (hgone hall hg) hretries) rfl
    have hcall : Sound n ((page react).call (.onReconnecting (s.client.retryCount + 1)) _) :=
      hset.call fun hall => Or.inr (hleft hall)
    intro hall
    exact (hcall hall).set rfl rfl rfl (fun _ => id) (fun _ hc he => ⟨hc, he⟩)
      (CollabClient.opens_setTimeout _)

theorem closeFromRelay (h : Sound n s) : Sound n ((page react).closeFromRelay s) := by
  have hreset : Sound n ((page react).modify (fun c =>
      { c with explicitDisconnect := true }.resetState.close s.client.grpc) s) := by
    intro hall
    refine (h hall).reset ?_ ?_ ?_ ?_ ?_ ?_ ?_ <;> simp [CollabClient.resetState]
    rfl
  unfold Page.closeFromRelay
  dsimp only
  split
  · exact hreset.call fun _ => Or.inl rfl
  · exact hreset

end Sound

/-- What a method that only closes adds to the record. -/
theorem closeFromRelay_grows : (AllFinal ((page react).closeFromRelay s) → s.AllFinal) ∧
    (s.left = false → ((page react).closeFromRelay s).left = false) := by
  unfold Page.closeFromRelay
  dsimp only
  split
  · exact ⟨fun hall => (allFinal_of_call hall).1, fun hleft => left_of_call hleft⟩
  · exact ⟨id, id⟩

namespace Sound

/-- An end of the session that the client comes back from. -/
theorem dropAndReconnect (h : Sound n s) {reason : String} {event : Callback}
    (hhandling : s.handling = some (.sessionEnded reason)) (hfired : s.fired = [event])
    (hback : s.client.comesBack reason = true) (hleft : s.AllFinal → s.left = false)
    (hgone : s.AllFinal → s.gone = true → s.client.maxRetries ≤ s.client.retryCount) :
    Sound n ((page react).dropAndReconnect s) := by
  let t : App := { s with client := s.client.resetState.close s.client.grpc }
  have hreset : Sound n t := by
    intro hall
    refine (h hall).reset ?_ ?_ ?_ ?_ ?_ ?_ ?_ <;> simp [CollabClient.resetState]
    rfl
  unfold Page.dropAndReconnect
  dsimp only
  split
  · have hcall : Sound n ((page react).call .onDisconnect t) := hreset.call fun _ => Or.inl rfl
    refine hcall.scheduleReconnect ?_ ?_
    · exact fun hall => left_of_call (hleft (allFinal_of_call hall).1)
    · intro hall hg
      have hfinal := (allFinal_of_call (s := t) hall).2
      simp only [Return.Final, show t.handling = _ from hhandling, show t.fired = _ from hfired,
        List.cons_append, List.nil_append] at hfinal
      refine hfinal ?_ hg
      rw [comesBack_of_call, ← hback]
      exact CollabClient.comesBack_congr (by simp [t, CollabClient.resetState])
  · refine hreset.scheduleReconnect hleft fun hall hg => ?_
    simpa [t, CollabClient.resetState] using hgone hall hg

theorem handleError (h : Sound n s) {err : ErrorEvent} {event : Callback}
    (hhandling : s.handling = some (.error err)) (hfired : s.fired = [event]) :
    Sound n ((page react).handleError err s) := by
  let t := (page react).call (.onErrorEvent err.code err.message) s
  have ht : Sound n t := h.call fun _ => Or.inl rfl
  have hsite : t.AllFinal → t.left = true → err.code = "ROOM_NOT_FOUND" →
      t.client.hasJoined = false := by
    intro hall
    have hfinal := (allFinal_of_call hall).2
    simpa only [Return.Final, hhandling, hfired, List.cons_append, List.nil_append] using hfinal
  unfold Page.handleError
  dsimp only
  split
  · exact ht
  · rename_i hdown
    have hclose : ((page react).closeFromRelay t).left = t.left ∧
        ((page react).closeFromRelay t).returned = t.returned ∧
        ((page react).closeFromRelay t).client.hasJoined = t.client.hasJoined := by
      unfold Page.closeFromRelay
      dsimp only
      rw [if_neg hdown]
      exact ⟨rfl, rfl, CollabClient.close_hasJoined⟩
    split
    · rename_i hgone
      obtain ⟨hcode, hjoined⟩ := Bool.and_eq_true_iff.mp hgone
      refine ht.closeFromRelay.call fun hall => Or.inr (Bool.eq_false_iff.mpr fun hleft => ?_)
      have hnot := hsite (fun r hr => hall r (hclose.2.1.symm ▸ hr)) (hclose.1 ▸ hleft)
        (of_decide_eq_true hcode)
      exact absurd (hclose.2.2.symm.trans hjoined) (by simp [hnot])
    · exact ht.closeFromRelay

/-- A peer that the client adds: only a client with a socket may take one that has an id. -/
theorem addPeer (h : Sound n s) (peer : PeerInfoJson)
    (hpeer : s.AllFinal → s.client.grpc = none → peer.clientId = "") :
    Sound n ((page react).addPeer peer s) := by
  have hset : Sound n ((page react).modify (.setPeer peer) s) := by
    intro hall
    change Calm n { s with client := s.client.setPeer peer }
    have hunchanged : s.client.grpc = none → s.client.setPeer peer = s.client := by
      intro hnone
      rw [CollabClient.setPeer, if_neg (not_not.mpr (hpeer hall hnone))]
    rw [CollabClient.setPeer_eq] at hunchanged ⊢
    refine (h hall).set rfl rfl rfl (fun hnone hnobody => ?_) (fun _ hc he => ⟨hc, he⟩) rfl
    exact (congrArg CollabClient.peers (hunchanged hnone)).trans hnobody
  exact hset.call fun _ => Or.inl rfl

/-- The peers of an answer, from the `k`-th on. -/
theorem addPeers {rj : RoomJoined} (entries : List (String × PeerInfo)) :
    ∀ (k : Nat) (s : App), Sound n s → s.handling = some (.roomJoined rj) →
      s.fired.countP Callback.isPeerJoined = k + 1 → s.fired ≠ [] →
      rj.room.peers.drop k = entries →
      (s.AllFinal → s.client.grpc = none → ∀ entry ∈ entries, entry.2.clientId = "") →
      Sound n (entries.foldl (fun s entry => (page react).addPeer (peerToJson entry.2) s) s) := by
  induction entries with
  | nil => exact fun _ _ h _ _ _ _ _ => h
  | cons entry entries ih =>
    intro k s h hhandling hcount hfired hdrop hids
    have hadd : Sound n ((page react).addPeer (peerToJson entry.2) s) := h.addPeer _
      fun hall hnone => hids hall hnone entry List.mem_cons_self
    have hrest : rj.room.peers.drop (k + 1) = entries := by
      rw [← List.drop_drop, hdrop]
      rfl
    obtain ⟨hhandling', hfired', hfinal⟩ :=
      addPeer_record react (peerToJson entry.2) s
    have hcount' : (s.fired ++ [Callback.onPeerJoined (peerToJson entry.2)]).countP
        Callback.isPeerJoined = k + 1 + 1 := by
      rw [List.countP_append, hcount]
      rfl
    have hlength : 2 ≤ (s.fired ++ [Callback.onPeerJoined (peerToJson entry.2)]).length := by
      rw [List.length_append]
      exact Nat.succ_le_succ (List.length_pos_of_ne_nil hfired)
    refine ih (k + 1) _ hadd (hhandling'.trans hhandling) (hfired' ▸ hcount') ?_ hrest ?_
    · exact hfired' ▸ List.append_ne_nil_of_right_ne_nil _ (List.cons_ne_nil _ _)
    · intro hall hnone
      have hpeers := (hhandling ▸ (hfinal hall).2).peers hlength hnone
      rwa [hcount', Nat.add_sub_cancel, hrest] at hpeers

/-- A client that still has its socket takes the answer to its join. -/
theorem handleRoomJoined (h : Sound n s) {rj : RoomJoined} {event : Callback}
    (hhandling : s.handling = some (.roomJoined rj)) (hfired : s.fired = [event])
    (hevent : event.isPeerJoined = false) (hgrpc : s.AllFinal → s.client.grpc ≠ none) :
    Sound n ((page react).handleRoomJoined rj s) := by
  have hroom : Sound n ((page react).modify (.setRoom rj) s) := by
    intro hall
    have hcalm := h hall
    have hnone := hgrpc hall
    exact
      { bare := fun hg => absurd hg hnone
        gone := fun hg => absurd (hcalm.gone hg).1 hnone
        left := hcalm.left
        late := hcalm.late
        opened := fun hleft => absurd (hcalm.grpc_of_left hleft) hnone }
  -- a client that has left has no socket
  have hleft : s.AllFinal → s.left = false := fun hall =>
    Bool.eq_false_iff.mpr fun hleft => hgrpc hall ((h hall).grpc_of_left hleft)
  let t := (page react).call (.onConnect rj.clientId) ((page react).modify (.setRoom rj) s)
  have ht : Sound n t := hroom.call fun hall => Or.inr (hleft hall)
  obtain ⟨hhandling', hfired', -⟩ := page_call_returned react (.onConnect rj.clientId)
    ((page react).modify (.setRoom rj) s)
  let t' := (page react).modify (fun c => { c with peers := ∅ }) t
  have ht' : Sound n t' := fun hall =>
    (ht hall).set rfl rfl rfl (fun _ _ => rfl) (fun _ hc he => ⟨hc, he⟩) rfl
  have hself : Sound n ((page react).addPeer t'.client.self t') := ht'.addPeer _
    fun hall hnone => ((ht' hall).bare hnone).2.1
  obtain ⟨hhandling'', hfired'', hfinal⟩ := addPeer_record react t'.client.self t'
  have hfired3 : ((page react).addPeer t'.client.self t').fired =
      [event, .onConnect rj.clientId, .onPeerJoined t'.client.self] := by
    rw [hfired'', show t'.fired = _ from hfired',
      show ((page react).modify _ s).fired = _ from hfired]
    rfl
  have hpeers : t'.fired ++ [.onPeerJoined t'.client.self] =
      [event, .onConnect rj.clientId, .onPeerJoined t'.client.self] := hfired''.symm.trans hfired3
  have hcount : [event, Callback.onConnect rj.clientId, .onPeerJoined t'.client.self].countP
      Callback.isPeerJoined = 0 + 1 := by
    rw [List.countP_cons_of_neg (by simp [hevent])]
    rfl
  refine hself.addPeers rj.room.peers 0 _ (hhandling''.trans (hhandling'.trans hhandling))
    (hfired3 ▸ hcount) (hfired3 ▸ List.cons_ne_nil _ _) rfl fun hall hnone => ?_
  -- without a socket, the client adds no peer with an id after itself
  have hrest := (hpeers ▸ (hhandling'.trans hhandling) ▸ (hfinal hall).2).peers (by simp) hnone
  rwa [hcount] at hrest

theorem handleSessionEnded (h : Sound n s) {reason : String} {event : Callback}
    (hhandling : s.handling = some (.sessionEnded reason)) (hfired : s.fired = [event])
    (hleft : s.AllFinal → s.left = false)
    (hgone : s.AllFinal → s.client.comesBack reason = true → s.gone = true →
      s.client.maxRetries ≤ s.client.retryCount) :
    Sound n ((page react).handleSessionEnded reason s) := by
  unfold Page.handleSessionEnded
  split
  · rename_i hback
    exact h.dropAndReconnect hhandling hfired hback hleft fun hall => hgone hall hback
  · exact h.closeFromRelay.call fun hall =>
      Or.inr (closeFromRelay_grows.2 (hleft (closeFromRelay_grows.1 hall)))

/-- An event, as the first thing in its job. -/
theorem handleEvent (h : Sound n s) (event : CollabEvent)
    (hhandling : s.handling = some event.event) (hfired : s.fired = []) :
    Sound n ((page react).handleEvent event s) := by
  have ht : Sound n ((page react).call (.onEvent event) s) := h.call fun _ => Or.inl rfl
  obtain ⟨hhandling', hfired', -⟩ := page_call_returned react (.onEvent event) s
  rw [hhandling] at hhandling'
  rw [hfired, List.nil_append] at hfired'
  have hfinal : AllFinal ((page react).call (.onEvent event) s) → Return.Final _ :=
    fun hall => (allFinal_of_call hall).2
  rw [hhandling, hfired] at hfinal
  unfold Page.handleEvent
  cases hevent : event.event with
  | error err =>
    rw [hevent] at hhandling'
    exact ht.handleError hhandling' hfired'
  | roomJoined rj =>
    rw [hevent] at hhandling' hfinal
    exact ht.handleRoomJoined hhandling' hfired' rfl hfinal
  | peerJoined peer =>
    rw [hevent] at hfinal
    exact ht.addPeer _ hfinal
  | peerLeft left =>
    have hset : Sound n ((page react).modify (fun c =>
        { c with peers := c.peers.erase left.clientId }) ((page react).call (.onEvent event) s)) :=
      fun hall => (ht hall).set rfl rfl rfl
        (fun _ hnobody => congrArg (AList.erase left.clientId) hnobody)
        (fun _ hc he => ⟨hc, he⟩) rfl
    exact hset.call fun _ => Or.inl rfl
  | sessionEnded reason =>
    rw [hevent] at hhandling' hfinal
    exact ht.handleSessionEnded hhandling' hfired' (fun hall => (hfinal hall).1)
      fun hall => (hfinal hall).2
  | ownerChanged newOwnerId =>
    have hset : Sound n ((page react).modify (fun c => { c with
        isOwner := newOwnerId = c.clientId
        peers := CollabClient.setOwner newOwnerId c.peers })
        ((page react).call (.onEvent event) s)) :=
      fun hall => (ht hall).set rfl rfl rfl
        (fun _ hnobody => congrArg (CollabClient.setOwner newOwnerId) hnobody)
        (fun _ hc he => ⟨hc, he⟩) rfl
    exact hset.call fun _ => Or.inl rfl
  | credentialsChanged cc => exact ht.call fun _ => Or.inl rfl
  | titleChanged tc =>
    have hset : Sound n ((page react).modify (fun c => { c with title := tc.title })
        ((page react).call (.onEvent event) s)) :=
      fun hall => (ht hall).set rfl rfl rfl (fun _ => id) (fun _ hc he => ⟨hc, he⟩) rfl
    exact hset.call fun _ => Or.inl rfl
  | appMessage msg => exact ht.call fun _ => Or.inl rfl
  | presence | sceneUpdate | cursorUpdate | textUpdate | sceneInitResponse | sceneInitRequest =>
    exact ht

/-- A change of what is not about the connection. -/
theorem modify (h : Sound n s) {f : CollabClient → CollabClient}
    (hgrpc : (f s.client).grpc = s.client.grpc)
    (hconnected : (f s.client).isConnected = s.client.isConnected)
    (hid : (f s.client).clientId = s.client.clientId)
    (hpeers : (f s.client).peers = s.client.peers)
    (hconnecting : (f s.client).isConnecting = s.client.isConnecting)
    (hexplicit : (f s.client).explicitDisconnect = s.client.explicitDisconnect)
    (hopens : (f s.client).opens = s.client.opens) : Sound n ((page react).modify f s) :=
  fun hall => (h hall).set hgrpc hconnected hid (fun _ hnobody => hpeers.trans hnobody)
    (fun _ hc he => ⟨hconnecting.trans hc, hexplicit.trans he⟩) hopens

/-- A client that has not been told to disconnect goes on. -/
theorem not_gone (h : Sound n s) (hexplicit : s.client.explicitDisconnect = false)
    (hall : s.AllFinal) : s.gone = false ∧ s.left = false := by
  have hgone : s.gone = false := Bool.eq_false_iff.mpr fun hg =>
    absurd (((h hall).gone hg).2.2.symm.trans hexplicit) Bool.true_eq_false.mp
  exact ⟨hgone, Bool.eq_false_iff.mpr fun hleft =>
    absurd (((h hall).left hleft).symm.trans hgone) Bool.true_eq_false.mp⟩

theorem tryAgain (h : Sound n s) (hexplicit : s.client.explicitDisconnect = false) :
    Sound n ((page react).scheduleReconnect s) :=
  h.scheduleReconnect (fun hall => (h.not_gone hexplicit hall).2) fun hall hg =>
    absurd (hg.symm.trans (h.not_gone hexplicit hall).1) Bool.true_eq_false.mp

/-- It may open a socket. -/
theorem openSocket (h : Sound n s) (hexplicit : s.client.explicitDisconnect = false)
    {f : CollabClient → CollabClient} (hf : (f s.client).grpc = none → s.client.grpc = none)
    (hconnected : (f s.client).isConnected = s.client.isConnected)
    (hid : (f s.client).clientId = s.client.clientId)
    (hpeers : (f s.client).peers = s.client.peers) : Sound n ((page react).modify f s) := by
  intro hall
  obtain ⟨hgone, hleft⟩ := h.not_gone hexplicit hall
  have hcalm := h hall
  exact
    { bare := fun hnone => by
        obtain ⟨hdown, hempty, hnobody⟩ := hcalm.bare (hf hnone)
        exact ⟨hconnected.trans hdown, hid.trans hempty, hpeers.trans hnobody⟩
      gone := fun hg => absurd (hg.symm.trans hgone) Bool.true_eq_false.mp
      left := hcalm.left
      late := hcalm.late
      opened := fun hl => absurd (hl.symm.trans hleft) Bool.true_eq_false.mp }

theorem handleConnectionClosed (h : Sound n s) :
    Sound n ((page react).handleConnectionClosed s) := by
  have hreset : Sound n ((page react).modify .resetState s) :=
    fun hall => (h hall).reset rfl rfl rfl rfl rfl id rfl
  have hrest : ∀ t, Sound n t → Sound n
      (if !((page react).client t).explicitDisconnect && ((page react).client t).hasJoined &&
        ((page react).client t).reconnectEnabled then (page react).scheduleReconnect t else t) := by
    intro t ht
    split
    · rename_i hagain
      have hexplicit := (Bool.not_eq_true' _).mp
        (Bool.and_eq_true_iff.mp (Bool.and_eq_true_iff.mp hagain).1).1
      exact ht.tryAgain hexplicit
    · exact ht
  unfold Page.handleConnectionClosed
  dsimp only
  refine hrest _ ?_
  split
  · exact hreset.call fun _ => Or.inl rfl
  · exact hreset

theorem roomChecked (h : Sound n s) (status : Option Nat) :
    Sound n ((page react).roomChecked status s) := by
  unfold Page.roomChecked
  split
  · exact h
  · rename_i hexplicit
    have hexplicit : s.client.explicitDisconnect = false := Bool.eq_false_iff.mpr hexplicit
    split
    · exact h.endSession (fun hall => (h.not_gone hexplicit hall).2) _
    · split
      · refine h.openSocket hexplicit (fun hnone => ?_) (by simp) (by simp) (by simp)
        unfold CollabClient.openWithToken at hnone
        split at hnone
        · exact hnone
        · cases hnone
      · exact h.tryAgain hexplicit

theorem gotToken (h : Sound n s) (token : String) :
    Sound n ((page react).gotToken token s) := by
  unfold Page.gotToken
  split
  · exact h
  · rename_i hexplicit
    exact h.openSocket (Bool.eq_false_iff.mpr hexplicit) (fun hnone => nomatch hnone) rfl rfl rfl

theorem getTokenFailed (h : Sound n s) (message : String) :
    Sound n ((page react).getTokenFailed message s) := by
  have hcall : Sound n ((page react).call (.onError message) s) := h.call fun _ => Or.inl rfl
  unfold Page.getTokenFailed
  dsimp only
  split
  · exact hcall
  · rename_i hexplicit
    split
    · exact hcall.tryAgain (Bool.eq_false_iff.mpr hexplicit)
    · exact fun hall => (hcall hall).set rfl rfl rfl (fun _ => id) (fun _ _ he => ⟨rfl, he⟩) rfl

/-- A job, as it begins. -/
theorem run (h : Sound n s) {job : Job} (hhandling : s.handling = job.event?)
    (hfired : s.fired = []) (hrun : (page react).run job s = some t) : Sound n t := by
  have hended : ∀ task, Sound n ((page react).modify (.endTask task) s) :=
    fun task => h.modify rfl rfl rfl rfl rfl rfl rfl
  cases job with
  | opened socket =>
    obtain ⟨-, rfl⟩ := Page.settle_eq_some.mp hrun
    refine (hended _).modify ?_ ?_ ?_ ?_ ?_ ?_ ?_ <;> simp
  | refused socket =>
    obtain ⟨-, rfl⟩ := Page.settle_eq_some.mp hrun
    exact hended _
  | closed socket =>
    obtain ⟨-, heq⟩ := Option.ite_none_right_eq_some.mp hrun
    obtain rfl := Option.some.inj heq
    have herased : Sound n ((page react).modify
        (fun c => { c with sockets := c.sockets.erase socket }) s) :=
      h.modify rfl rfl rfl rfl rfl rfl rfl
    split
    · exact herased.handleConnectionClosed
    · exact herased
  | failed socket message =>
    obtain ⟨-, heq⟩ := Option.ite_none_right_eq_some.mp hrun
    exact Option.some.inj heq ▸ h.call fun _ => Or.inl rfl
  | message socket event =>
    obtain ⟨-, heq⟩ := Option.ite_none_right_eq_some.mp hrun
    exact Option.some.inj heq ▸ h.handleEvent event hhandling hfired
  | fired timer =>
    obtain ⟨-, rfl⟩ := Page.settle_eq_some.mp hrun
    refine (hended _).modify rfl rfl rfl rfl rfl rfl ?_
    simp [CollabClient.checkRoom, CollabClient.opens, Command.isOpen]
  | checked fetch status =>
    obtain ⟨-, rfl⟩ := Page.settle_eq_some.mp hrun
    exact (hended _).roomChecked status
  | gotToken request token =>
    obtain ⟨-, rfl⟩ := Page.settle_eq_some.mp hrun
    exact (hended _).gotToken token
  | tokenFailed request message =>
    obtain ⟨-, rfl⟩ := Page.settle_eq_some.mp hrun
    exact (hended _).getTokenFailed message

end Sound

/-! ### Runs -/

/-- A page that leaves its callbacks so that their methods can go on stays calm. -/
theorem step_calm {m : Move} (h : s.AllFinal → Calm n s) (hstep : step react s m = some t) :
    Sound s.client.opens t := by
  have hbegin : ∀ handling, Sound s.client.opens
      { s with left := s.gone, handling := handling, fired := [] } := by
    intro handling hall
    have hcalm := h hall
    exact ⟨hcalm.bare, hcalm.gone, id, hcalm.late, fun _ => rfl⟩
  cases m with
  | call call =>
    obtain rfl := Option.some.inj hstep
    exact perform_keeps (P := Sound s.client.opens)
      (fun t args ht hdown hall => (ht hall).connect args hdown)
      (fun t ht hgrpc hall => (ht hall).stop hgrpc) (fun t ht _ hall => (ht hall).hangUp)
      (fun t ht => ht.call fun _ => Or.inl rfl) _ call (hbegin none)
  | job job => exact (hbegin _).run rfl rfl hstep

theorem exec_calm {options : CollabClientOptions} {ms : List Move}
    (hexec : Machine.exec (step react) (start options n) ms = some t) (hall : t.AllFinal) :
    ∃ n, Calm n t := by
  have hstart : Calm 0 (start options n) :=
    ⟨fun _ => ⟨rfl, rfl, rfl⟩, nofun, nofun, nofun, nofun⟩
  refine Machine.invariant_guarded (G := fun _ _ => True) (I := fun t => t.AllFinal → ∃ n, Calm n t)
    ?_ (fun _ => ⟨0, hstart⟩) (Machine.guarded_of_forall fun _ _ _ => trivial) hexec hall
  intro s m t hs _ hstep hall
  by_cases hbefore : s.AllFinal
  · obtain ⟨k, hk⟩ := hs hbefore
    exact ⟨_, step_calm (fun _ => hk) hstep hall⟩
  · exact ⟨_, step_calm (n := 0) (fun h => absurd h hbefore) hstep hall⟩

/-- When every callback leaves the client so that its method can go on, `disconnect` is final:
once the stack has unwound and until the next `connect`, the client is not connected and not
connecting, it has no id and no peers, it opens no socket, and the page hears of no connection,
no attempt and no end. -/
theorem disconnect_final {options : CollabClientOptions} {ms : List Move}
    (hexec : Machine.exec (step react) (start options n) ms = some t) (hall : t.AllFinal) :
    (t.gone = true → t.client.isConnected = false ∧ t.client.isConnecting = false ∧
      t.client.clientId = "" ∧ ∀ id, t.client.getPeer id = none) ∧
    (∀ callback ∈ t.late, callback.reopens = false) ∧
    ∀ m t', step react t m = some t' → t'.AllFinal → t'.left = true →
      t'.client.opens = t.client.opens := by
  obtain ⟨k, hcalm⟩ := exec_calm hexec hall
  refine ⟨fun hgone => ?_, hcalm.late, fun m t' hstep hall' hleft => ?_⟩
  · obtain ⟨hgrpc, hconnecting, -⟩ := hcalm.gone hgone
    obtain ⟨hdown, hempty, hnobody⟩ := hcalm.bare hgrpc
    exact ⟨hdown, hconnecting, hempty, fun id => by rw [CollabClient.getPeer, hnobody]; rfl⟩
  · exact (step_calm (fun _ => hcalm) hstep hall').opened hleft

/-- A client connects and is told this, and its page leaves in such callbacks. -/
def leaving (leaves : Callback → Bool) (event : Event) : Option App :=
  Machine.exec (step fun callback _ => if leaves callback then [.disconnect] else []) (start {} 5)
    [.call (.connect { relayUrl := "ws", sessionId := "s", username := "page", metadata := [] }),
      .job (.opened 0), .job (.message 0 { eventId := "e", event })]

/-- It leaves as it hears that its join was refused, and the client is at rest. -/
theorem disconnect_final_refused : ∃ t,
    leaving (fun callback => callback matches .onErrorEvent ..)
      (.error { code := "ROOM_FULL", message := "full" }) = some t ∧
    t.gone = true ∧ t.client.isConnected = false ∧ t.client.isConnecting = false ∧
      t.client.clientId = "" ∧ ∀ id, t.client.getPeer id = none := by
  have hrun : (leaving (fun callback => callback matches .onErrorEvent ..)
      (.error { code := "ROOM_FULL", message := "full" })).any (fun t =>
        t.gone ∧ ∀ r ∈ t.returned, r.Final) = true := by
    decide +kernel
  obtain ⟨t, ht, hstate⟩ := (Option.any_eq_true _ _).mp hrun
  obtain ⟨hgone, hall⟩ := of_decide_eq_true hstate
  exact ⟨t, ht, hgone, (disconnect_final ht hall).1 hgone⟩

/-- The callback passes on an event. -/
def Callback.tells : Callback → Bool
  | .onEvent _ => true
  | _ => false

/-- It leaves as it hears that it has joined, and the client joins all the same. -/
theorem disconnect_notFinal : ¬ ∀ (react : Callback → App → List AppCall) options n ms t,
    Machine.exec (step react) (start options n) ms = some t → t.gone = true →
    t.client.isConnected = false := by
  intro h
  have hrun : (leaving Callback.tells (.roomJoined
      { clientId := "me", maxPeers := 10, protocolVersion := 2, room :=
          { sessionId := "s", peers := [], ownerClientId := "", metadata := none,
            encrypted := false, title := "" } })).any (fun t =>
      t.gone ∧ t.client.isConnected = true) = true := by
    decide +kernel
  obtain ⟨t, ht, hstate⟩ := (Option.any_eq_true _ _).mp hrun
  obtain ⟨hgone, hup⟩ := of_decide_eq_true hstate
  exact absurd ((h _ _ _ _ t ht hgone).symm.trans hup) Bool.false_ne_true

end App

end MassRelay.Ts

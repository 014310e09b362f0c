import MassRelay.Ts.CollabClient

/-!
# MassRelay.Ts.Replica

What a client keeps of its room.

With callbacks that leave it alone, a client after an event is a function of the client
before and the event (`CollabClient.after`): the page drops out (`Hom.handleEvent`). Then
each kind of event that a room sends has a small effect on the copy of the room, stated as a
`simp` lemma.
-/

namespace MassRelay.Ts

/-- A map of pages that keeps the client and commutes with what its methods do to a page. -/
structure Hom {σ τ : Type} (page : Page σ) (page' : Page τ) (f : σ → τ) : Prop where
  client : ∀ s, page'.client (f s) = page.client s
  setClient : ∀ c s, f (page.setClient c s) = page'.setClient c (f s)
  call : ∀ callback s, f (page.call callback s) = page'.call callback (f s)

namespace Hom

variable {σ τ : Type} {page : Page σ} {page' : Page τ} {f : σ → τ}

theorem modify (h : Hom page page' f) (g : CollabClient → CollabClient) (s : σ) :
    f (page.modify g s) = page'.modify g (f s) := by
  rw [Page.modify, h.setClient, ← h.client, Page.modify]

theorem addPeer (h : Hom page page' f) (peer : PeerInfoJson) (s : σ) :
    f (page.addPeer peer s) = page'.addPeer peer (f s) := by
  rw [Page.addPeer, h.call, h.modify, Page.addPeer]

theorem endSession (h : Hom page page' f) (reason : String) (s : σ) :
    f (page.endSession reason s) = page'.endSession reason (f s) := by
  rw [Page.endSession, h.call, h.modify, Page.endSession]

theorem closeFromRelay (h : Hom page page' f) (s : σ) :
    f (page.closeFromRelay s) = page'.closeFromRelay (f s) := by
  simp only [Page.closeFromRelay, apply_ite f, h.call, h.modify, h.client]

theorem scheduleReconnect (h : Hom page page' f) (s : σ) :
    f (page.scheduleReconnect s) = page'.scheduleReconnect (f s) := by
  simp only [Page.scheduleReconnect, apply_ite f, h.endSession, h.call, h.modify, ← h.client]

theorem dropAndReconnect (h : Hom page page' f) (s : σ) :
    f (page.dropAndReconnect s) = page'.dropAndReconnect (f s) := by
  simp only [Page.dropAndReconnect, apply_ite f, h.scheduleReconnect, h.call, h.modify, h.client]

theorem handleError (h : Hom page page' f) (err : ErrorEvent) (s : σ) :
    f (page.handleError err s) = page'.handleError err (f s) := by
  simp only [Page.handleError, apply_ite f, h.closeFromRelay, h.call, ← h.client]

theorem handleRoomJoined (h : Hom page page' f) (rj : RoomJoined) (s : σ) :
    f (page.handleRoomJoined rj s) = page'.handleRoomJoined rj (f s) := by
  have hpeers : ∀ (peers : List (String × PeerInfo)) (s : σ),
      f (peers.foldl (fun s entry => page.addPeer (peerToJson entry.2) s) s) =
        peers.foldl (fun s entry => page'.addPeer (peerToJson entry.2) s) (f s) := by
    intro peers
    induction peers with
    | nil => exact fun s => rfl
    | cons entry peers ih =>
      intro s
      rw [List.foldl_cons, ih, h.addPeer, List.foldl_cons]
  simp only [Page.handleRoomJoined, hpeers, h.addPeer, h.call, h.modify, ← h.client]

theorem handleSessionEnded (h : Hom page page' f) (reason : String) (s : σ) :
    f (page.handleSessionEnded reason s) = page'.handleSessionEnded reason (f s) := by
  have hreason : page'.reconnectable reason (f s) = page.reconnectable reason s := by
    rw [Page.reconnectable, h.client, Page.reconnectable]
  simp only [Page.handleSessionEnded, hreason, h.client, apply_ite f, h.dropAndReconnect, h.call,
    h.closeFromRelay]

theorem handleEvent (h : Hom page page' f) (event : CollabEvent) (s : σ) :
    f (page.handleEvent event s) = page'.handleEvent event (f s) := by
  unfold Page.handleEvent
  cases event.event <;>
    simp only [h.call, h.modify, h.addPeer, h.handleError, h.handleRoomJoined,
      h.handleSessionEnded, ← h.client]

end Hom

/-! ### A client by itself -/

/-- The page that is nothing but a client. -/
def silent : Page CollabClient where
  client := id
  setClient c _ := c
  call _ c := c
  client_setClient _ _ := rfl

/-- To a page that leaves its client alone, only the client matters. -/
theorem Listener.hom {σ : Type} (page : Listener σ) : Hom page.toPage silent page.client where
  client _ := rfl
  setClient := page.client_setClient
  call := page.client_call

namespace CollabClient

variable {c : CollabClient}

/-- The client after an event. -/
def after (c : CollabClient) (e : Event) : CollabClient :=
  silent.handleEvent { eventId := "", event := e } c

theorem silent_handleEvent (event : CollabEvent) :
    silent.handleEvent event c = c.after event.event := by
  unfold after Page.handleEvent
  cases event.event <;> rfl

theorem mem_setOwner {newOwnerId id : String} {peers : AList fun _ : String => PeerInfoJson} :
    id ∈ setOwner newOwnerId peers ↔ id ∈ peers := by
  have hfold : ∀ (entries : List (Sigma fun _ : String => PeerInfoJson))
      (m : AList fun _ : String => PeerInfoJson),
      id ∈ entries.foldl
        (fun peers e => peers.insert e.1 { e.2 with isOwner := some (e.1 = newOwnerId) }) m ↔
        id ∈ m ∨ id ∈ entries.map Sigma.fst := by
    intro entries
    induction entries with
    | nil => simp
    | cons e entries ih =>
      intro m
      rw [List.foldl_cons, ih, AList.mem_insert, List.map_cons, List.mem_cons]
      tauto
  rw [setOwner, hfold]
  exact or_iff_left_of_imp fun h => h

/-! What the events of a queue do to the copy of the room. -/

theorem after_peerJoined (c : CollabClient) (peer : PeerInfo) :
    c.after (.peerJoined peer) = c.setPeer (peerToJson peer) := rfl

theorem after_peerLeft (c : CollabClient) (left : PeerLeft) :
    c.after (.peerLeft left) = { c with peers := c.peers.erase left.clientId } := rfl

theorem after_ownerChanged (c : CollabClient) (newOwnerId : String) :
    c.after (.ownerChanged newOwnerId) =
      { c with
        isOwner := newOwnerId = c.clientId
        peers := setOwner newOwnerId c.peers } := rfl

theorem after_titleChanged (c : CollabClient) (tc : TitleChanged) :
    c.after (.titleChanged tc) = { c with title := tc.title } := rfl

theorem mem_setPeer {peer : PeerInfoJson} {id : String} (hne : peer.clientId ≠ "") :
    id ∈ (c.setPeer peer).peers ↔ id = peer.clientId ∨ id ∈ c.peers := by
  rw [setPeer, if_pos hne, AList.mem_insert]

theorem setPeer_eq (c : CollabClient) (peer : PeerInfoJson) :
    c.setPeer peer = { c with peers := (c.setPeer peer).peers } := by
  unfold setPeer
  split <;> rfl

/-- The client after its answer, but for the peers, and whom it has for peers. -/
theorem after_roomJoined (c : CollabClient) (rj : RoomJoined) (hne : rj.clientId ≠ "")
    (hpeers : ∀ entry ∈ rj.room.peers, entry.2.clientId = entry.1 ∧ entry.1 ≠ "") :
    ∃ peers, c.after (.roomJoined rj) = { c.setRoom rj with peers } ∧
      ∀ id, id ∈ peers ↔ id ∈ rj.clientId :: rj.room.peers.map (·.1) := by
  have hfold : ∀ (entries : List (String × PeerInfo)) (c : CollabClient),
      (∀ entry ∈ entries, entry.2.clientId = entry.1 ∧ entry.1 ≠ "") →
      ∃ peers, entries.foldl (fun c entry => silent.addPeer (peerToJson entry.2) c) c =
          { c with peers } ∧ ∀ id, id ∈ peers ↔ id ∈ c.peers ∨ id ∈ entries.map (·.1) := by
    intro entries
    induction entries with
    | nil => exact fun c _ => ⟨c.peers, rfl, by simp⟩
    | cons entry entries ih =>
      intro c hentries
      obtain ⟨hid, hne⟩ := hentries entry List.mem_cons_self
      obtain ⟨peers, heq, hmem⟩ := ih (c.setPeer (peerToJson entry.2))
        fun e he => hentries e (List.mem_cons_of_mem _ he)
      refine ⟨peers, ?_, fun id => ?_⟩
      · rw [List.foldl_cons]
        refine heq.trans ?_
        rw [setPeer_eq]
      · have hset : id ∈ (c.setPeer (peerToJson entry.2)).peers ↔
            id = (peerToJson entry.2).clientId ∨ id ∈ c.peers :=
          mem_setPeer (by rw [peerToJson, hid]; exact hne)
        rw [hmem, hset, List.map_cons, List.mem_cons, peerToJson, hid]
        tauto
  obtain ⟨peers, heq, hmem⟩ := hfold rj.room.peers
    (setPeer ({ c.setRoom rj with peers := ∅ }).self { c.setRoom rj with peers := ∅ }) hpeers
  refine ⟨peers, ?_, fun id => ?_⟩
  · refine heq.trans ?_
    rw [setPeer_eq]
  · rw [hmem, mem_setPeer (by exact hne), List.mem_cons]
    simp only [AList.notMem_empty, or_false]
    rfl

end CollabClient

/-- The client of a listener after its answer and the events of its queue. -/
theorem Listener.client_handleEvents {σ : Type} (page : Listener σ) (events : List CollabEvent)
    (s : σ) : page.client (page.handleEvents events s) =
      (events.map (·.event)).foldl CollabClient.after (page.client s) := by
  unfold Page.handleEvents
  induction events generalizing s with
  | nil => rfl
  | cons event events ih =>
    rw [List.foldl_cons, ih, page.hom.handleEvent, CollabClient.silent_handleEvent, List.map_cons,
      List.foldl_cons]

end MassRelay.Ts

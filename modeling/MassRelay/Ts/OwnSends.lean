import MassRelay.Ts.Effects

/-!
# MassRelay.Ts.OwnSends

What a client sends of its own accord: a join when a socket opens, and a leave when it hangs up.

Every update that it sends is one that a callback or the application gave it (`spares_handleEvent`,
`spares_disconnect`, `spares_run`).
-/

namespace MassRelay.Ts

/-- The update of the document that an action carries, if it carries one. -/
def OutgoingUpdate.ofAction? : Action → Option OutgoingUpdate
  | .sceneUpdate su => some (.sceneUpdate su)
  | .textUpdate tu => some (.textUpdate tu)
  | _ => none

def Command.update? : Command → Option OutgoingUpdate
  | .send _ action => OutgoingUpdate.ofAction? action
  | _ => none

namespace CollabClient

variable {c c' c'' : CollabClient}

/-- From the one to the other, the client sends no update. -/
def Spares (c c' : CollabClient) : Prop :=
  ∃ asked, c'.asked = c.asked ++ asked ∧ ∀ command ∈ asked, command.update? = none

namespace Spares

theorem of_eq (h : c'.asked = c.asked) : c.Spares c' := ⟨[], by rw [h, List.append_nil], by simp⟩

theorem of_concat {command : Command} (h : c'.asked = c.asked ++ [command])
    (hupdate : command.update? = none) : c.Spares c' :=
  ⟨[command], h, fun command' hmem => by rw [List.mem_singleton.mp hmem, hupdate]⟩

theorem refl (c : CollabClient) : c.Spares c := of_eq rfl

theorem trans (h : c.Spares c') (h' : c'.Spares c'') : c.Spares c'' := by
  obtain ⟨asked, heq, hupdate⟩ := h
  obtain ⟨asked', heq', hupdate'⟩ := h'
  refine ⟨asked ++ asked', by rw [heq', heq, List.append_assoc], fun command hmem => ?_⟩
  exact (List.mem_append.mp hmem).elim (hupdate command) (hupdate' command)

theorem sendOn {action : Action} (h : OutgoingUpdate.ofAction? action = none) (c : CollabClient) :
    c.Spares (c.sendOn action) := by
  unfold CollabClient.sendOn
  split
  · exact refl c
  · exact of_concat rfl h

/-- A reset that closes the socket. -/
theorem close (h : c'.asked = c.asked) (grpc : Option Nat) : c.Spares (c'.close grpc) := by
  cases grpc with
  | none => exact of_eq h
  | some socket => exact trans (of_eq h) (of_concat rfl rfl)

theorem stop (c : CollabClient) : c.Spares c.stop := by
  rw [CollabClient.stop_eq]
  suffices h : c.Spares c.clearRetry from h.trans (of_eq rfl)
  unfold clearRetry
  split
  · exact refl c
  · exact of_concat rfl rfl

theorem hangUp (c : CollabClient) : c.Spares c.hangUp := by
  unfold CollabClient.hangUp
  dsimp only
  split
  · exact trans (sendOn rfl c) (close rfl _)
  · exact close rfl _

theorem openWithToken (c : CollabClient) : c.Spares c.openWithToken := by
  unfold CollabClient.openWithToken
  split <;> exact of_concat rfl rfl

end Spares

end CollabClient

namespace Page

variable {σ : Type} {page : Page σ} {s t : σ}

/-- The same of a page. -/
def Spares (page : Page σ) (s t : σ) : Prop := (page.client s).Spares (page.client t)

/-- Apart from `onEvent` the callbacks of the page send no updates. -/
def CallsSpare (page : Page σ) : Prop :=
  ∀ callback t, callback.isEvent = false → page.Spares t (page.call callback t)

namespace Spares

theorem refl (s : σ) : page.Spares s s := CollabClient.Spares.refl _

theorem modify (h : page.Spares s t) {f : CollabClient → CollabClient}
    (hf : ∀ c : CollabClient, c.Spares (f c)) : page.Spares s (page.modify f t) := by
  rw [Spares, page.client_modify]
  exact CollabClient.Spares.trans h (hf _)

/-- Whatever the client changes and does not ask for. -/
theorem modify_of_eq (h : page.Spares s t) {f : CollabClient → CollabClient}
    (hf : ∀ c : CollabClient, (f c).asked = c.asked) : page.Spares s (page.modify f t) :=
  h.modify fun c => .of_eq (hf c)

section Calls

variable (hcall : page.CallsSpare)

include hcall

theorem call (h : page.Spares s t) {callback : Callback} (hevent : callback.isEvent = false) :
    page.Spares s (page.call callback t) :=
  CollabClient.Spares.trans h (hcall callback t hevent)

theorem addPeer (h : page.Spares s t) (peer : PeerInfoJson) :
    page.Spares s (page.addPeer peer t) := by
  refine call hcall (h.modify_of_eq fun c => ?_) rfl
  unfold CollabClient.setPeer
  split <;> rfl

theorem endSession (h : page.Spares s t) (reason : String) :
    page.Spares s (page.endSession reason t) :=
  call hcall (h.modify_of_eq (by exact fun _ => rfl)) rfl

theorem closeFromRelay (h : page.Spares s t) : page.Spares s (page.closeFromRelay t) := by
  have hclose := h.modify (f := fun c =>
    { c with explicitDisconnect := true }.resetState.close (page.client t).grpc)
    fun _ => .close rfl _
  unfold Page.closeFromRelay
  dsimp only
  split
  · exact call hcall hclose rfl
  · exact hclose

theorem scheduleReconnect (h : page.Spares s t) : page.Spares s (page.scheduleReconnect t) := by
  unfold Page.scheduleReconnect
  split
  · exact endSession hcall h _
  · exact (call hcall (h.modify_of_eq (by exact fun _ => rfl)) rfl).modify fun _ =>
      .of_concat (by rfl) (by rfl)

theorem dropAndReconnect (h : page.Spares s t) : page.Spares s (page.dropAndReconnect t) := by
  have hclose := h.modify (f := fun c => c.resetState.close (page.client t).grpc)
    fun _ => .close rfl _
  unfold Page.dropAndReconnect
  dsimp only
  split
  · exact scheduleReconnect hcall (call hcall hclose rfl)
  · exact scheduleReconnect hcall hclose

theorem handleRoomJoined (h : page.Spares s t) (rj : RoomJoined) :
    page.Spares s (page.handleRoomJoined rj t) := by
  -- induction on the peers of the answer, each with a callback of its own
  have hpeers : ∀ (peers : List (String × PeerInfo)) (t : σ), page.Spares s t → page.Spares s
      (peers.foldl (fun t entry => page.addPeer (peerToJson entry.2) t) t) := by
    intro peers
    induction peers with
    | nil => exact fun t ht => ht
    | cons entry peers ih => exact fun t ht => ih _ (addPeer hcall ht _)
  exact hpeers _ _ (addPeer hcall
    ((call hcall (h.modify_of_eq (by exact fun _ => rfl)) rfl).modify_of_eq
      (by exact fun _ => rfl)) _)

/-- What the client does with an event after `onEvent`. -/
theorem handleEvent (event : CollabEvent) :
    page.Spares (page.call (.onEvent event) t) (page.handleEvent event t) := by
  have hu : page.Spares (page.call (.onEvent event) t) (page.call (.onEvent event) t) := refl _
  unfold Page.handleEvent
  cases event.event with
  | error err =>
    have herror : page.Spares (page.call (.onEvent event) t)
        (page.call (.onErrorEvent err.code err.message) (page.call (.onEvent event) t)) :=
      call hcall hu rfl
    simp only [Page.handleError]
    split
    · exact herror
    · split
      · exact call hcall (closeFromRelay hcall herror) rfl
      · exact closeFromRelay hcall herror
  | roomJoined rj => exact handleRoomJoined hcall hu rj
  | peerJoined peer => exact addPeer hcall hu _
  | sessionEnded reason =>
    simp only [Page.handleSessionEnded]
    split
    · exact dropAndReconnect hcall hu
    · exact call hcall (closeFromRelay hcall hu) rfl
  | peerLeft | ownerChanged | titleChanged =>
    exact call hcall (hu.modify_of_eq (by exact fun _ => rfl)) rfl
  | credentialsChanged | appMessage => exact call hcall hu rfl
  | presence | sceneUpdate | cursorUpdate | textUpdate | sceneInitResponse | sceneInitRequest =>
    exact hu

theorem disconnect (s : σ) : page.Spares s (page.disconnect s) := by
  have hstop : page.Spares s (page.modify CollabClient.stop s) :=
    (refl s).modify CollabClient.Spares.stop
  unfold Page.disconnect
  dsimp only
  split
  · exact hstop
  · split
    · exact call hcall (hstop.modify CollabClient.Spares.hangUp) rfl
    · exact hstop.modify CollabClient.Spares.hangUp

theorem handleConnectionClosed (h : page.Spares s t) :
    page.Spares s (page.handleConnectionClosed t) := by
  have hreset := h.modify_of_eq (f := .resetState) fun _ => rfl
  have hrest : ∀ t, page.Spares s t → page.Spares s
      (if !(page.client t).explicitDisconnect && (page.client t).hasJoined &&
        (page.client t).reconnectEnabled then page.scheduleReconnect t else t) := by
    intro t ht
    split
    · exact scheduleReconnect hcall ht
    · exact ht
  unfold Page.handleConnectionClosed
  dsimp only
  refine hrest _ ?_
  split
  · exact call hcall hreset rfl
  · exact hreset

/-- A job, unless a socket delivers. -/
theorem run {job : Job} (hmessage : ∀ socket event, job ≠ .message socket event)
    (hrun : page.run job s = some t) : page.Spares s t := by
  have hend : ∀ task, page.Spares s (page.modify (.endTask task) s) :=
    fun task => (refl s).modify_of_eq (by exact fun _ => rfl)
  cases job with
  | message socket event => exact absurd rfl (hmessage socket event)
  | opened socket =>
    obtain ⟨-, rfl⟩ := Page.settle_eq_some.mp hrun
    exact (hend _).modify fun c => .sendOn rfl c
  | refused socket =>
    obtain ⟨-, rfl⟩ := Page.settle_eq_some.mp hrun
    exact hend _
  | closed socket =>
    obtain ⟨-, heq⟩ := Option.ite_none_right_eq_some.mp hrun
    obtain rfl := Option.some.inj heq
    have herase : page.Spares s
        (page.modify (fun c => { c with sockets := c.sockets.erase socket }) s) :=
      (refl s).modify_of_eq fun _ => rfl
    split
    · exact handleConnectionClosed hcall herase
    · exact herase
  | failed socket message =>
    obtain ⟨-, heq⟩ := Option.ite_none_right_eq_some.mp hrun
    exact Option.some.inj heq ▸ hcall _ s rfl
  | fired timer =>
    obtain ⟨-, rfl⟩ := Page.settle_eq_some.mp hrun
    exact (hend _).modify fun _ => .of_concat (by rfl) (by rfl)
  | checked fetch status =>
    obtain ⟨-, rfl⟩ := Page.settle_eq_some.mp hrun
    unfold Page.roomChecked
    split
    · exact hend _
    · split
      · exact endSession hcall (hend _) _
      · split
        · exact (hend _).modify CollabClient.Spares.openWithToken
        · exact scheduleReconnect hcall (hend _)
  | gotToken request token =>
    obtain ⟨-, rfl⟩ := Page.settle_eq_some.mp hrun
    unfold Page.gotToken
    split
    · exact hend _
    · exact (hend _).modify fun _ => .of_concat (by rfl) (by rfl)
  | tokenFailed request message =>
    obtain ⟨-, rfl⟩ := Page.settle_eq_some.mp hrun
    have hfailed : page.Spares s (page.call (.onError message)
        (page.modify (.endTask (.token request)) s)) :=
      call hcall (hend _) rfl
    unfold Page.getTokenFailed
    dsimp only
    split
    · exact hfailed
    · split
      · exact scheduleReconnect hcall hfailed
      · exact hfailed.modify_of_eq (by exact fun _ => rfl)

end Calls

end Spares

end Page

end MassRelay.Ts

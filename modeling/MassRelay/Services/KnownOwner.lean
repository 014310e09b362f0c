import MassRelay.Lib.History
import MassRelay.Services.Welcome

/-!
# MassRelay.Services.KnownOwner

Who the clients of a room think its owner is.

A client learns the owner from its `RoomJoined` and from each `OwnerChanged` after it
(`knownOwner`). A transfer sends one to every client that stays. A join as owner into a room
that has clients does not: they hear of a peer, not of an owner. So from such a join on the
clients that keep up have it wrong (`knownOwner_run_iff`).
-/

namespace MassRelay

namespace CollabService

variable {u : UuidSource} {s s' : CollabService} {g : Goroutine} {ctx : Ctx} {join : JoinRoom}
variable {r : RoomRef} {sid c : String} {w : RoomJoined} {req : Request}

/-- What an event tells of the owner. -/
def followOwner (owner : String) : Event → String
  | .ownerChanged newOwner => newOwner
  | _ => owner

/-- The owner that a client knows after its answer and these events. -/
def knownOwner (w : RoomJoined) (es : List Event) : String :=
  es.foldl followOwner w.room.ownerClientId

/-- Every client that keeps up knows the owner of its room. -/
def OwnerKnown (s : CollabService) (ws : List (JoinRoom × RoomJoined)) : Prop :=
  Agrees (fun w es v => knownOwner w es = v.ownerClientId) s ws

/-- A join as owner that is accepted into a room with a client that has room for an event. -/
def UnseenOwner (u : UuidSource) (s : CollabService) : Request → Prop
  | .handle _ ctx { action := some (.join join), .. } _ =>
    join.isOwner = true ∧ allowsRoom ctx join.sessionId = true ∧
      ∃ r, s.getRoomByID (s.joinTarget u join) = some r ∧ s.refuses join r = false ∧
        ∃ c ∈ (s.roomAt r).clients, (s.clientAt c).slow = false ∧
          (s.clientAt c).sendCh.buf.length < 64
  | _ => False

/-- Whatever happens is told as far as the owner goes, but for the join of an owner. -/
theorem told_owner {h : Happening} {v : RoomView} (hnodup : v.clients.Nodup)
    (hc : c ∈ (h.apply v).clients)
    (hjoined : ∀ peer join, h = .joined peer join → join.isOwner = false) :
    (h.told v c).foldl followOwner v.ownerClientId = (h.apply v).ownerClientId := by
  cases h with
  | messages told =>
    simp only [Happening.told, Happening.apply, List.foldl_map]
    exact List.foldl_fixed' (fun _ => rfl) _
  | relayed x action =>
    by_cases hx : c = x
    · cases action <;> simp [Happening.told, Happening.apply, hx]
    · cases action <;> simp [Happening.told, Happening.apply, hx, Action.fanOut]
      all_goals first | rfl | skip
      split <;> simp [followOwner]
  | declared => rfl
  | joined peer join => simp [Happening.told, Happening.apply, hjoined peer join rfl, followOwner]
  | left x reason => simp [Happening.told, Happening.apply, apply_ite, followOwner]
  | moved x reason successor =>
    have hx : c ≠ x := ((hnodup.mem_erase_iff).mp hc).1
    simp [Happening.told, Happening.apply, hx, followOwner]
  | ended x => simp [Happening.apply] at hc

/-- What leaves a client in the dark about the owner is an owner's join. -/
theorem OwnerKnown.serve_iff {ws : List (JoinRoom × RoomJoined)} (hs : RoomInv u s)
    (hopen : ChansOpen s) (hws : Recorded u s ws) (hknown : OwnerKnown s ws) (req : Request) :
    OwnerKnown (s.serve u req) (ws ++ (s.joinAnswer u req).toList) ↔ ¬ UnseenOwner u s req := by
  constructor
  · intro hafter hunseen
    unfold UnseenOwner at hunseen
    split at hunseen
    · rename_i g ctx actionId clientId join pick
      obtain ⟨howner, hallows, r, hr, haccept, c, hc, hslow, hfree⟩ := hunseen
      obtain ⟨peer, hpeer, hne, hdoes⟩ := handleJoin_joined g hs.wf hopen hallows hr haccept
      obtain ⟨p, hp, rfl⟩ := hws.member r c hc
      have hhears := hdoes.hears _ hc
      have hslow' := (hhears.slow_iff le_rfl).mpr ⟨hslow, fun _ => hfree⟩
      have hstays : p.2.clientId ∈ ((s.handleJoin u g ctx join).1.roomAt r).clients := by
        change p.2.clientId ∈ ((s.handleJoin u g ctx join).1.view r).clients
        rw [hdoes.view]
        exact List.mem_insert_of_mem hc
      -- it has only heard of a peer, so it knows the owner that the room had
      have hold : knownOwner p.2 ((s.handleJoin u g ctx join).1.heard p.2.clientId) =
          (s.roomAt r).ownerClientId := by
        rw [(hhears.kept hslow').2.1, knownOwner, List.foldl_append]
        exact hknown p hp r hc hslow
      have hnew := hafter p (List.mem_append_left _ hp) r hstays hslow'
      change knownOwner p.2 ((s.handleJoin u g ctx join).1.heard p.2.clientId) =
        ((s.handleJoin u g ctx join).1.view r).ownerClientId at hnew
      rw [hdoes.view, hold] at hnew
      have hsame : (s.roomAt r).ownerClientId = peer.clientId :=
        hnew.trans (if_pos howner)
      have hmem := ((hs.owners hr).owner (hsame ▸ hne)).1
      exact hpeer (hsame ▸ hmem)
    · exact hunseen
  · intro hseen
    refine Agrees.serve hs hopen hws hknown (fun r join w hw => hw.ownerClientId.symm) ?_
    intro r h w es hhappens hc hslow hfree hstays hP
    rw [knownOwner, List.foldl_append, ← knownOwner, hP]
    refine told_owner (hs.wf.nodup r) hstays fun peer join hjoined => ?_
    subst hjoined
    by_contra howner
    cases hhappens with
    | joined g ctx actionId clientId _ pick _ hallows hr haccept hpeer hne =>
      exact hseen ⟨Bool.eq_true_of_not_eq_false howner, hallows, r, hr, haccept, w.clientId, hc,
        hslow, hfree (List.cons_ne_nil _ _)⟩

/-- In every run, the clients that keep up know the owner of their room in all of its states
exactly when no owner joins a room with a client that has room for an event. -/
theorem knownOwner_run_iff (u : UuidSource) (maxPeers : Int) (reqs : List Request) :
    (∀ pre, pre <+: reqs → OwnerKnown (serveAll u (newCollabService maxPeers) pre)
      (welcomes u (newCollabService maxPeers) pre)) ↔
    ∀ pre req, pre ++ [req] <+: reqs →
      ¬ UnseenOwner u (serveAll u (newCollabService maxPeers) pre) req := by
  refine History.forall_prefix_iff ?_ fun pre req hknown => ?_
  · intro p hp
    simp [welcomes] at hp
  · rw [welcomes_append, serveAll, List.foldl_append]
    exact OwnerKnown.serve_iff (.serveAll maxPeers pre) (.serveAll maxPeers pre)
      (.serveAll maxPeers pre) hknown req

/-- The owner opens a second tab, and the first still takes itself for the owner. -/
theorem secondTab_notTold : ¬ OwnerKnown
    (serveAll .unary (newCollabService 10) [joinS1 true "b1", joinS1 true "b1"])
    (welcomes .unary (newCollabService 10) [joinS1 true "b1", joinS1 true "b1"]) := by
  intro h
  have hfirst : ∃ p ∈ welcomes .unary (newCollabService 10) [joinS1 true "b1", joinS1 true "b1"],
      let s := serveAll .unary (newCollabService 10) [joinS1 true "b1", joinS1 true "b1"]
      p.2.clientId ∈ (s.roomAt 0).clients ∧ (s.clientAt p.2.clientId).slow = false ∧
        knownOwner p.2 (s.heard p.2.clientId) ≠ (s.view 0).ownerClientId := by
    decide
  obtain ⟨p, hp, hc, hslow, hne⟩ := hfirst
  exact hne (h p hp 0 hc hslow)

end CollabService

end MassRelay

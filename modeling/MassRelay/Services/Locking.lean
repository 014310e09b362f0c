import MassRelay.Services.Handlers

/-!
# MassRelay.Services.Locking

Who holds the lock of a room across steps.

A broadcast keeps `room.mu` for reading while it delivers, and every other section under a
lock is a single step. So a goroutine that reads a room is in the middle of a broadcast
there: its next step is one of a `deliver` call, none of which ever waits, or gives the lock
back (`locking`). Outside of its calls it reads no room (`Free`).
-/

namespace MassRelay

namespace CollabService

open Threads

variable {u : UuidSource} {s s' : CollabService} {g g' : Goroutine} {o : ServiceOp} {r : RoomRef}

/-- Goroutine `g` reads no room. -/
def Free (g : Goroutine) (s : CollabService) : Prop := ∀ r, g ∉ (s.roomAt r).readers

/-- Goroutine `g` reads no room but `r`. -/
def ReadsOnly (g : Goroutine) (r : RoomRef) (s : CollabService) : Prop :=
  ∀ r', g ∈ (s.roomAt r').readers → r' = r

/-! ### Who reads after a step -/

theorem modifyRoom_readers {r r' : RoomRef} {f : CollabRoom → CollabRoom}
    (hf : (f (s.roomAt r)).readers = (s.roomAt r).readers) :
    ((s.modifyRoom r f).roomAt r').readers = (s.roomAt r').readers := by
  by_cases hr : r' = r
  · subst hr
    rwa [modifyRoom_roomAt_self]
  · rw [modifyRoom_roomAt_of_ne s f hr]

theorem rlock_readers (s : CollabService) (g : Goroutine) (r r' : RoomRef) (range : Range) :
    ((s.rlock g r range).roomAt r').readers =
      if r' = r then insert g (s.roomAt r').readers else (s.roomAt r').readers := by
  by_cases hr : r' = r
  · subst hr
    rw [if_pos rfl, rlock_roomAt_self]
  · rw [if_neg hr]
    cases range <;> simp [CollabService.rlock, noteProgress, hr]

/-- Only a lock for reading makes a reader, and it is the one who locks. -/
theorem apply_readers {n : Nat} {a : o.Res} (h : o.apply u g n s = some (s', a))
    (hg : g' ∈ (s'.roomAt r).readers) :
    g' ∈ (s.roomAt r).readers ∨ (g' = g ∧ ∃ range, o = .rlock r range) := by
  have hsame : (s'.roomAt r).readers = (s.roomAt r).readers →
      g' ∈ (s.roomAt r).readers ∨ (g' = g ∧ ∃ range, o = .rlock r range) :=
    fun heq => Or.inl (heq ▸ hg)
  cases o with
  | rlock r' range =>
    obtain ⟨rfl, -⟩ := Prod.mk.inj (Option.some.inj h)
    rw [rlock_readers] at hg
    split at hg
    · rename_i hr
      subst hr
      rcases Finset.mem_insert.mp hg with rfl | hg
      · exact Or.inr ⟨rfl, range, rfl⟩
      · exact Or.inl hg
    · exact Or.inl hg
  | runlock r' =>
    obtain ⟨rfl, -⟩ := Prod.mk.inj (Option.some.inj h)
    by_cases hr : r = r'
    · subst hr
      simp only [runlock, modifyRoom_roomAt_self] at hg
      exact Or.inl (Finset.mem_of_mem_erase hg)
    · simp only [runlock, modifyRoom_roomAt_of_ne s _ hr] at hg
      exact Or.inl hg
  | getOrCreateRoom sid =>
    obtain ⟨rfl, -⟩ := Prod.mk.inj (Option.some.inj h)
    rcases getOrCreateRoom_cases s sid with ⟨r', -, heq⟩ | ⟨-, -, -, hroom, -⟩
    · exact hsame (by rw [heq])
    · rw [hroom] at hg
      by_cases hr : r = s.nextRoom
      -- nobody reads a room that was just made
      · subst hr
        simp [Function.update_self] at hg
      · rw [Function.update_of_ne hr] at hg
        exact Or.inl hg
  | addClient r' ctx join sid peers =>
    obtain ⟨rfl, -⟩ := Prod.mk.inj (lock_eq_some h).2
    refine hsame ?_
    by_cases hr : r = r'
    · subst hr
      simp [addJoined, addClient, modifyRoom, tick]
    · simp [addJoined, addClient, modifyRoom, tick, hr]
  | removeClient r' c =>
    obtain ⟨rfl, -⟩ := Prod.mk.inj (lock_eq_some h).2
    exact hsame (modifyRoom_readers (f := fun room => { room with clients := room.clients.erase c })
      rfl)
  | closeAllClients r' =>
    obtain ⟨rfl, -⟩ := Prod.mk.inj (lock_eq_some h).2
    exact hsame ((modifyRoom_readers rfl).trans (by rw [closeClients_roomAt]))
  | setEncrypted _ _ | claimRoom _ _ _ | setTitle _ _ =>
    obtain ⟨rfl, -⟩ := Prod.mk.inj (lock_eq_some h).2
    exact hsame (modifyRoom_readers rfl)
  | ownedElsewhere _ _ =>
    obtain ⟨rfl, -⟩ := Prod.mk.inj (lock_eq_some h).2
    exact Or.inl hg
  | transferOwner r' successor =>
    obtain ⟨rfl, -⟩ := Prod.mk.inj (lock_eq_some h).2
    exact hsame (modifyRoom_readers (s := s.modifyClient successor _) rfl)
  | removeRoom r' =>
    obtain ⟨rfl, -⟩ := Prod.mk.inj (Option.some.inj h)
    exact hsame (by rw [(SideStep.removeRoom g s _).roomAt])
  | beginDeliver c e =>
    obtain ⟨rfl, -⟩ := Prod.mk.inj (Option.some.inj h)
    refine hsame ?_
    unfold beginDeliver
    dsimp only
    split <;> rfl
  | put c e k =>
    obtain ⟨rfl, -⟩ := Prod.mk.inj (Option.some.inj h)
    refine hsame ?_
    cases hput : s.put? g c e k with
    | none => rfl
    | some s₁ => rcases put?_eq_some hput with ⟨-, rfl⟩ | ⟨ch, -, rfl⟩ <;> rfl
  | _ =>
    obtain ⟨rfl, -⟩ := Prod.mk.inj (Option.some.inj h)
    exact Or.inl hg

/-! ### The protocol -/

/-- How goroutines share the locks: one that reads a room delivers there or gives the lock
back, and nobody takes a lock in another's name. -/
def locking : Protocol CollabService Goroutine ServiceOp Unit where
  inv _ := True
  rely g s s' := ∀ r, g ∈ (s'.roomAt r).readers → g ∈ (s.roomAt r).readers
  idle := Free
  req g o s := ∀ r, g ∈ (s.roomAt r).readers → delivering o = true ∨ o = .runlock r
  ok _ _ _ _ := True
  okLaunch _ _ := True

theorem Free.rely (h : locking.rely g s s') (hs : Free g s) : Free g s' :=
  fun r hg => hs r (h r hg)

theorem ReadsOnly.rely (h : locking.rely g s s') (hs : ReadsOnly g r s) : ReadsOnly g r s' :=
  fun r' hg => hs r' (h r' hg)

/-- The rule of a step that is neither a lock for reading nor its release. -/
theorem unlocked_keeps (ho : ∀ r range, o ≠ .rlock r range) :
    Keeps (ServiceOp.exec u) locking g (Free g) (Call.perform o) := by
  refine .perform Free.rely (fun _ hs r hg => absurd hg (hs r)) ?_
  intro n s₁ s₂ a _ hs _ hx
  refine ⟨trivial, fun r hg => ?_⟩
  rcases apply_readers (exec_eq_some hx).2 hg with hg | ⟨-, range, ho'⟩
  · exact hs r hg
  · exact ho r range ho'

theorem unlocked_of_plain (ho : plain o = true) (r : RoomRef) (range : Range) :
    o ≠ .rlock r range := by
  rintro rfl
  simp [plain] at ho

/-- A `deliver` call under the lock of room `r`. -/
theorem deliver_readsOnly (c : String) (e : CollabEvent) :
    Keeps (ServiceOp.exec u) locking g (ReadsOnly g r) (Call.deliver c e) := by
  have hstep : ∀ {o : ServiceOp}, delivering o = true →
      Keeps (ServiceOp.exec u) locking g (ReadsOnly g r) (Call.perform o) := by
    intro o ho
    refine .perform ReadsOnly.rely (fun _ _ _ _ => Or.inl ho) ?_
    intro n s₁ s₂ a _ hs _ hx
    refine ⟨trivial, fun r' hg => ?_⟩
    rcases apply_readers (exec_eq_some hx).2 hg with hg | ⟨-, range, rfl⟩
    · exact hs r' hg
    · simp [delivering] at ho
  refine .bind (hstep rfl) fun call => ?_
  cases call with
  | none => exact .ret _
  | some k =>
    refine .bind (hstep rfl) fun queued => ?_
    split
    · exact .ret _
    · exact hstep rfl

/-- A broadcast takes the lock of its room and gives it back. -/
theorem broadcast_free (range : Range) (build : String → CollabEvent) :
    Keeps (ServiceOp.exec u) locking g (Free g) (Call.broadcast r range build) := by
  intro s hs
  refine broadcast_wp (L := fun _ => ReadsOnly g r) ?_ (fun c _ s hs => deliver_readsOnly c _ s hs)
    fun s hs => ?_
  · refine wp_op hs Free.rely (fun _ hs r hg => absurd hg (hs r)) ?_
    intro n s₁ s₂ a _ hs _ hx
    refine ⟨trivial, fun r' hg => ?_⟩
    rcases apply_readers (exec_eq_some hx).2 hg with hg | ⟨-, range', heq⟩
    · exact absurd hg (hs r')
    · exact (ServiceOp.rlock.inj heq).1.symm
  · refine wp_op hs ReadsOnly.rely (fun _ hs r' hg => Or.inr (by rw [hs r' hg])) ?_
    intro n s₁ s₂ a _ hs _ hx
    refine ⟨trivial, fun r' hg => ?_⟩
    have happly := (exec_eq_some hx).2
    rcases apply_readers happly hg with hold | ⟨-, range', heq⟩
    · obtain rfl := hs r' hold
      obtain ⟨rfl, -⟩ := Prod.mk.inj (Option.some.inj happly)
      simp [runlock] at hg
    · simp at heq

/-! ### The calls -/

theorem locking_actionRules (x : String) :
    ActionRules u locking g x (Free g) (fun _ => Free g) where
  forget h := h
  find hs := wp_mono (fun _ _ hs => ⟨hs, fun _ _ => hs⟩) (unlocked_keeps (by simp) _ hs)
  plain ho := unlocked_keeps (unlocked_of_plain ho)
  remove := unlocked_keeps (by simp)
  broadcast _ _ := broadcast_free _ _

theorem locking_joinRules (ctx : Ctx) (join : JoinRoom) :
    JoinRules u locking g ctx join (Free g) (fun _ _ => Free g) (fun _ => Free g) where
  forget h := h
  refused _ hs := hs
  outside ho := unlocked_keeps (unlocked_of_plain ho)
  create _ _ hs := unlocked_keeps (by simp) _ hs
  inside ho := unlocked_keeps (unlocked_of_plain ho)
  accept {sid r enc s} hs :=
    Keeps.bind (unlocked_keeps (by simp)) (fun _ => .bind (unlocked_keeps (by simp)) fun _ =>
      .bind (unlocked_keeps (by simp)) fun _ => .bind (unlocked_keeps (by simp)) fun _ =>
      .bind (unlocked_keeps (by simp)) fun _ => .bind (broadcast_free _ _) fun _ =>
      .bind (unlocked_keeps (by simp)) fun _ => .bind (unlocked_keeps (by simp)) fun _ =>
        .ret _) s hs

theorem handleAction_free (ctx : Ctx) (a : CollabAction) :
    Keeps (ServiceOp.exec u) locking g (Free g) (Call.handleAction ctx a) := by
  refine .bind ?_ fun _ => .bind (unlocked_keeps (by simp)) fun _ => .ret _
  by_cases hjoin : ∃ join, a.action = some (.join join)
  · obtain ⟨join, hjoin⟩ := hjoin
    simp only [Call.route, hjoin]
    exact fun s hs => (locking_joinRules ctx join).handleJoin_wp hs
  · exact (locking_actionRules a.clientId).phases.route_keeps rfl fun join h => hjoin ⟨join, h⟩

theorem deliverAppMessage_free (sid c : String) (msg : AppMessage) :
    Keeps (ServiceOp.exec u) locking g (Free g) (Call.deliverAppMessage sid c msg) := by
  refine .bind (unlocked_keeps (by simp)) fun room => ?_
  cases room with
  | none => exact .ret _
  | some r =>
    refine .bind (unlocked_keeps (by simp)) fun eventId => ?_
    split
    · exact .bind (broadcast_free _ _) fun _ => .bind (unlocked_keeps (by simp)) fun _ => .ret _
    · exact .bind (broadcast_free _ _) fun _ => .bind (unlocked_keeps (by simp)) fun _ => .ret _

end CollabService

end MassRelay

import MassRelay.Services.Steps

/-!
# MassRelay.Services.Housed

Who is where after a step, and whose channel is open.

The clients of a room after a step are `clientsAfter` it, and what is registered and sent
is said in the same way. From this follows the invariant `Housed`: a client is in one room
at most, once, and its channel is open as long as it is there. So a step that puts only to
clients of a room does not bring the service down (`Housed.panicked`).
-/

namespace MassRelay

namespace CollabService

variable {u : UuidSource} {s s' : CollabService} {g : Goroutine} {o : ServiceOp}

/-! ### Who is where after a step -/

/-- Who is in room `r` after a step. -/
def clientsAfter (u : UuidSource) (s : CollabService) (r : RoomRef) : ServiceOp → List String
  | .addClient r' _ _ _ _ =>
    if r' = r then (s.roomAt r).clients.insert (s.uuid u) else (s.roomAt r).clients
  | .removeClient r' c => if r' = r then (s.roomAt r).clients.erase c else (s.roomAt r).clients
  | .closeAllClients r' => if r' = r then [] else (s.roomAt r).clients
  | _ => (s.roomAt r).clients

theorem modifyRoom_clients {r r' : RoomRef} {f : CollabRoom → CollabRoom}
    (hf : (f (s.roomAt r)).clients = (s.roomAt r).clients) :
    ((s.modifyRoom r f).roomAt r').clients = (s.roomAt r').clients := by
  by_cases hr : r' = r
  · subst hr
    rwa [modifyRoom_roomAt_self]
  · rw [modifyRoom_roomAt_of_ne s f hr]

/-- A step leaves in a room whom it says, but for a room that it creates. -/
theorem apply_clients {n : Nat} {a : o.Res} (h : o.apply u g n s = some (s', a)) (r : RoomRef) :
    (s'.roomAt r).clients = clientsAfter u s r o ∨
      (r = s.nextRoom ∧ (s'.roomAt r).clients = []) := by
  cases o with
  | addClient r' ctx join sid peers =>
    obtain ⟨rfl, -⟩ := Prod.mk.inj (lock_eq_some h).2
    left
    by_cases hr : r' = r
    · subst hr
      simp [clientsAfter, addJoined, addClient, newClient, modifyRoom, tick]
    · simp [clientsAfter, addJoined, addClient, modifyRoom, tick, hr, Ne.symm hr]
  | removeClient r' c =>
    obtain ⟨rfl, -⟩ := Prod.mk.inj (lock_eq_some h).2
    left
    by_cases hr : r' = r
    · subst hr
      simp [clientsAfter, removeLeft, removeClient, modifyRoom]
    · simp [clientsAfter, removeLeft, removeClient, modifyRoom, hr, Ne.symm hr]
  | closeAllClients r' =>
    obtain ⟨rfl, -⟩ := Prod.mk.inj (lock_eq_some h).2
    left
    by_cases hr : r' = r
    · subst hr
      simp [clientsAfter, closeAllClients]
    · simp [clientsAfter, closeAllClients, hr, Ne.symm hr, closeClients_roomAt]
  | getOrCreateRoom sid =>
    obtain ⟨rfl, -⟩ := Prod.mk.inj (Option.some.inj h)
    -- a registered session keeps its room, and a new one gets a new pointer
    rcases getOrCreateRoom_cases s sid with ⟨r', -, heq⟩ | ⟨-, -, -, hroom, -⟩
    · rw [heq]
      exact Or.inl rfl
    · rw [hroom]
      by_cases hr : r = s.nextRoom
      · exact Or.inr ⟨hr, by rw [hr, Function.update_self]⟩
      · rw [Function.update_of_ne hr]
        exact Or.inl rfl
  | setEncrypted _ _ | claimRoom _ _ _ | setTitle _ _ =>
    obtain ⟨rfl, -⟩ := Prod.mk.inj (lock_eq_some h).2
    exact Or.inl (modifyRoom_clients rfl)
  | ownedElsewhere _ _ =>
    obtain ⟨rfl, -⟩ := Prod.mk.inj (lock_eq_some h).2
    exact Or.inl rfl
  | transferOwner r' successor =>
    obtain ⟨rfl, -⟩ := Prod.mk.inj (lock_eq_some h).2
    exact Or.inl (modifyRoom_clients (s := s.modifyClient successor _) rfl)
  | removeRoom r' =>
    obtain ⟨rfl, -⟩ := Prod.mk.inj (Option.some.inj h)
    left
    rw [(SideStep.removeRoom g s _).roomAt]
    rfl
  | rlock r' range =>
    obtain ⟨rfl, -⟩ := Prod.mk.inj (Option.some.inj h)
    have hclients : ((s.modifyRoom r' fun room =>
        { room with readers := insert g room.readers }).roomAt r).clients =
        (s.roomAt r).clients := modifyRoom_clients rfl
    left
    cases range <;> exact hclients
  | runlock r' =>
    obtain ⟨rfl, -⟩ := Prod.mk.inj (Option.some.inj h)
    exact Or.inl (modifyRoom_clients rfl)
  | beginDeliver c e =>
    obtain ⟨rfl, -⟩ := Prod.mk.inj (Option.some.inj h)
    left
    unfold beginDeliver
    dsimp only
    split <;> rfl
  | put c e k =>
    obtain ⟨rfl, -⟩ := Prod.mk.inj (Option.some.inj h)
    left
    unfold put?
    split
    · rfl
    · cases (s.clientAt c).sendCh.push? ⟨e, g, k⟩ <;> rfl
  | _ =>
    obtain ⟨rfl, -⟩ := Prod.mk.inj (Option.some.inj h)
    exact Or.inl rfl

/-- Whether a step can register a room or unregister one. -/
def registering : ServiceOp → Bool
  | .getOrCreateRoom _ | .removeRoom _ => true
  | _ => false

theorem closeClients_maxPeersPerRoom (s : CollabService) (cs : List String) :
    (cs.foldl closeClient s).maxPeersPerRoom = s.maxPeersPerRoom :=
  closeClients_rule (I := fun s' => s'.maxPeersPerRoom = s.maxPeersPerRoom) id (fun _ h => h) rfl

/-- No step changes the participant limit, and most leave the registry alone. -/
theorem apply_registry {n : Nat} {a : o.Res} (h : o.apply u g n s = some (s', a)) :
    s'.maxPeersPerRoom = s.maxPeersPerRoom ∧ (registering o = false → s'.rooms = s.rooms) := by
  cases o with
  | addClient _ _ _ _ _ | removeClient _ _ | setEncrypted _ _ | claimRoom _ _ _ | setTitle _ _
  | ownedElsewhere _ _ | transferOwner _ _ =>
    obtain ⟨rfl, -⟩ := Prod.mk.inj (lock_eq_some h).2
    exact ⟨rfl, fun _ => rfl⟩
  | closeAllClients r =>
    obtain ⟨rfl, -⟩ := Prod.mk.inj (lock_eq_some h).2
    exact ⟨closeClients_maxPeersPerRoom s _, fun _ => closeClients_rooms s _⟩
  | getOrCreateRoom sid =>
    obtain ⟨rfl, -⟩ := Prod.mk.inj (Option.some.inj h)
    refine ⟨?_, fun ho => by simp [registering] at ho⟩
    unfold getOrCreateRoom
    split <;> rfl
  | removeRoom r =>
    obtain ⟨rfl, -⟩ := Prod.mk.inj (Option.some.inj h)
    refine ⟨?_, fun ho => by simp [registering] at ho⟩
    unfold removeRoom
    split
    · rfl
    · split <;> rfl
  | rlock r range =>
    obtain ⟨rfl, -⟩ := Prod.mk.inj (Option.some.inj h)
    cases range <;> exact ⟨rfl, fun _ => rfl⟩
  | beginDeliver c e =>
    obtain ⟨rfl, -⟩ := Prod.mk.inj (Option.some.inj h)
    unfold beginDeliver
    dsimp only
    split <;> exact ⟨rfl, fun _ => rfl⟩
  | put c e k =>
    obtain ⟨rfl, -⟩ := Prod.mk.inj (Option.some.inj h)
    unfold put?
    split
    · exact ⟨rfl, fun _ => rfl⟩
    · cases (s.clientAt c).sendCh.push? ⟨e, g, k⟩ <;> exact ⟨rfl, fun _ => rfl⟩
  | _ =>
    obtain ⟨rfl, -⟩ := Prod.mk.inj (Option.some.inj h)
    exact ⟨rfl, fun _ => rfl⟩

/-- A registered room stays registered unless `removeRoom` finds it empty. -/
theorem apply_registered {n : Nat} {a : o.Res} (h : o.apply u g n s = some (s', a)) {sid : String}
    {r : RoomRef} (hr : s.getRoomByID sid = some r) :
    s'.getRoomByID sid = some r ∨
      ∃ r', o = .removeRoom r' ∧ (s.roomAt r').sessionId = sid ∧ (s.roomAt r).clients = [] := by
  cases ho : registering o with
  | false =>
    left
    rw [getRoomByID, (apply_registry h).2 ho]
    exact hr
  | true =>
    cases o with
    | getOrCreateRoom sid' =>
      obtain ⟨rfl, -⟩ := Prod.mk.inj (Option.some.inj h)
      left
      rcases getOrCreateRoom_cases s sid' with ⟨r', -, heq⟩ | ⟨hnone, -, hlook, -⟩
      · rw [heq]
        exact hr
      · rw [hlook, if_neg]
        · exact hr
        · rintro rfl
          exact absurd (hnone.symm.trans hr) (by simp)
    | removeRoom r' =>
      obtain ⟨rfl, -⟩ := Prod.mk.inj (Option.some.inj h)
      by_cases hsid : (s.roomAt r').sessionId = sid
      · by_cases hempty : (s.roomAt r).clients = []
        · exact Or.inr ⟨r', rfl, hsid, hempty⟩
        · left
          unfold removeRoom
          rw [hsid, show s.rooms.lookup sid = some r from hr]
          simp [isEmpty, hempty, hr]
      · left
        unfold removeRoom
        split
        · exact hr
        · split
          · simpa [getRoomByID, AList.lookup_erase_ne (Ne.symm hsid)] using hr
          · exact hr
    | _ => simp [registering] at ho

/-! ### Channels and members -/

/-- The `deliver` call a step begins. -/
def sends (g : Goroutine) : ServiceOp → List Delivery
  | .beginDeliver c e => [⟨g, c, e⟩]
  | _ => []

theorem apply_sent {n : Nat} {a : o.Res} (h : o.apply u g n s = some (s', a)) :
    s'.sent = s.sent ++ sends g o := by
  cases o with
  | addClient _ _ _ _ _ | removeClient _ _ | setEncrypted _ _ | claimRoom _ _ _ | setTitle _ _
  | ownedElsewhere _ _ | transferOwner _ _ =>
    obtain ⟨rfl, -⟩ := Prod.mk.inj (lock_eq_some h).2
    exact (List.append_nil _).symm
  | closeAllClients r =>
    obtain ⟨rfl, -⟩ := Prod.mk.inj (lock_eq_some h).2
    exact (closeClients_sent s _).trans (List.append_nil _).symm
  | getOrCreateRoom sid =>
    obtain ⟨rfl, -⟩ := Prod.mk.inj (Option.some.inj h)
    unfold getOrCreateRoom
    split <;> exact (List.append_nil _).symm
  | removeRoom r =>
    obtain ⟨rfl, -⟩ := Prod.mk.inj (Option.some.inj h)
    unfold removeRoom
    split
    · exact (List.append_nil _).symm
    · split <;> exact (List.append_nil _).symm
  | rlock r range =>
    obtain ⟨rfl, -⟩ := Prod.mk.inj (Option.some.inj h)
    cases range <;> exact (List.append_nil _).symm
  | beginDeliver c e =>
    obtain ⟨rfl, -⟩ := Prod.mk.inj (Option.some.inj h)
    exact beginDeliver_sent s g c e
  | put c e k =>
    obtain ⟨rfl, -⟩ := Prod.mk.inj (Option.some.inj h)
    cases hput : s.put? g c e k with
    | none => exact (List.append_nil _).symm
    | some s₁ => exact (put?_sent hput).trans (List.append_nil _).symm
  | _ =>
    obtain ⟨rfl, -⟩ := Prod.mk.inj (Option.some.inj h)
    exact (List.append_nil _).symm

theorem closed_modifyClient {c : String} {f : CollabClient → CollabClient}
    (hf : (f (s.clientAt c)).sendCh.closed = (s.clientAt c).sendCh.closed) (c' : String) :
    ((s.modifyClient c f).clientAt c').sendCh.closed = (s.clientAt c').sendCh.closed := by
  by_cases hc : c' = c
  · subst hc
    simpa using hf
  · simp [hc]

theorem closed_closeClients (s : CollabService) (cs : List String) (c : String) :
    ((cs.foldl closeClient s).clientAt c).sendCh.closed =
      (decide (c ∈ cs) || (s.clientAt c).sendCh.closed) := by
  induction cs generalizing s with
  | nil => simp
  | cons c' cs ih =>
    have hclose : ((s.closeClient c').clientAt c).sendCh.closed =
        (decide (c = c') || (s.clientAt c).sendCh.closed) := by
      unfold closeClient
      split
      · by_cases hc : c = c'
        · subst hc
          simpa
        · simp [hc]
      · by_cases hc : c = c'
        · subst hc
          simp
        · simp [hc]
    rw [List.foldl_cons, ih, hclose]
    by_cases hc : c = c' <;> simp [hc]

theorem closeAllClients_closed {r : RoomRef} {c : String} (hc : c ∈ (s.roomAt r).clients) :
    ((s.closeAllClients r).clientAt c).sendCh.closed = true := by
  have hclosed := closed_closeClients s (s.roomAt r).clients c
  simpa [closeAllClients, hc] using hclosed

/-- A client's channel is closed by the end of its session only, and a new one is open. -/
theorem Effect.closed (h : Effect u g s o s') (c : String) :
    (s'.clientAt c).sendCh.closed = (s.clientAt c).sendCh.closed ∨
    (c = s.uuid u ∧ Makes u g o s s' ∧ (s'.clientAt c).sendCh.closed = false) ∨
    ∃ r, o = .closeAllClients r ∧ c ∈ (s.roomAt r).clients ∧
      (s'.clientAt c).sendCh.closed = true := by
  cases h with
  | side h _ _ =>
    rw [h.clientAt]
    exact Or.inl rfl
  | room r f _ _ _ _ _ => exact Or.inl rfl
  | create sid =>
    left
    unfold getOrCreateRoom
    split <;> rfl
  | join r ctx join sid peers hfree =>
    by_cases hc : c = s.uuid u
    · subst hc
      exact Or.inr (Or.inl ⟨rfl, ⟨r, ctx, join, sid, peers, rfl, hfree, rfl⟩,
        by simp [addJoined, addClient, newClient]⟩)
    · left
      simp [addJoined, addClient, newClient, tick, hc]
  | announce r c' =>
    exact Or.inl (closed_modifyClient (c := c') (f := fun cl => { cl with progress := .announced })
      rfl c)
  | answer id r sid c' enc peers => exact Or.inl (closed_modifyClient rfl c)
  | leave r c' hfree => exact Or.inl rfl
  | transfer r successor hfree =>
    exact Or.inl (closed_modifyClient (c := successor)
      (f := fun cl => { cl with info := { cl.info with isOwner := true } }) rfl c)
  | closeAll r hfree =>
    by_cases hc : c ∈ (s.roomAt r).clients
    · exact Or.inr (Or.inr ⟨r, rfl, hc, closeAllClients_closed hc⟩)
    · have hclosed := closed_closeClients s (s.roomAt r).clients c
      exact Or.inl (by simpa [closeAllClients, hc] using hclosed)
  | deliver c' e =>
    left
    unfold beginDeliver
    dsimp only
    split <;> rfl
  | put c' e k hput =>
    left
    rcases put?_eq_some hput with ⟨-, rfl⟩ | ⟨ch, hpush, rfl⟩
    · rfl
    · exact closed_modifyClient (Go.Chan.push?_eq_some hpush).2 c
  | slow c' k =>
    exact Or.inl (closed_modifyClient (c := c') (f := fun cl => { cl with slow := true }) rfl c)

/-- Nobody is in two rooms, or in one twice, and who is in one has an open channel. -/
structure Housed (u : UuidSource) (s : CollabService) : Prop extends Base u s where
  nodup : ∀ r, (s.roomAt r).clients.Nodup
  unique : ∀ {r r' c}, c ∈ (s.roomAt r).clients → c ∈ (s.roomAt r').clients → r = r'
  opened : ∀ {r c}, c ∈ (s.roomAt r).clients → (s.clientAt c).sendCh.closed = false

theorem Housed.new (maxPeers : Int) : Housed u (newCollabService maxPeers) where
  toBase := .new maxPeers
  nodup _ := List.nodup_nil
  unique h := by simp [newCollabService] at h
  opened h := by simp [newCollabService] at h

theorem Housed.apply {n : Nat} {a : o.Res} (hs : Housed u s) (h : o.apply u g n s = some (s', a)) :
    Housed u s' where
  toBase := hs.toBase.effect (apply_effect h)
  nodup r := by
    rcases apply_clients h r with hclients | ⟨-, hnil⟩
    · rw [hclients]
      unfold clientsAfter
      split
      · split
        · exact (hs.nodup r).insert
        · exact hs.nodup r
      · split
        · exact (hs.nodup r).erase _
        · exact hs.nodup r
      · split
        · exact List.nodup_nil
        · exact hs.nodup r
      · exact hs.nodup r
    · rw [hnil]
      exact List.nodup_nil
  unique := by
    -- the id of a new client is in no room yet
    have hnew : ∀ {r}, s.uuid u ∉ (s.roomAt r).clients := fun hc => uuid_not_issued (hs.issued hc)
    intro r r' c hc hc'
    rcases (apply_effect h).mem_clients hc with hc | ⟨rfl, -, _, _, _, _, rfl, -⟩
    · rcases (apply_effect h).mem_clients hc' with hc' | ⟨rfl, -⟩
      · exact hs.unique hc hc'
      · exact absurd hc hnew
    · rcases (apply_effect h).mem_clients hc' with hc' | ⟨-, -, _, _, _, _, heq, -⟩
      · exact absurd hc' hnew
      · exact (ServiceOp.addClient.inj heq).1
  opened := by
    intro r c hc
    rcases (apply_effect h).closed c with hclosed | ⟨-, -, hclosed⟩ | ⟨r', rfl, hc', -⟩
    · rw [hclosed]
      rcases (apply_effect h).mem_clients hc with hc | ⟨rfl, -, _, _, _, _, rfl, hs'⟩
      · exact hs.opened hc
      · rw [← hclosed, hs']
        simp [addJoined, addClient, newClient]
    · exact hclosed
    · rcases (apply_effect h).mem_clients hc with hcr | ⟨-, -, _, _, _, _, heq, -⟩
      -- the room whose clients are closed is empty now, and nobody in it was in another
      · obtain rfl := hs.unique hcr hc'
        rcases apply_clients h r with hclients | ⟨-, hnil⟩
        · rw [hclients] at hc
          simp [clientsAfter] at hc
        · simp [hnil] at hc
      · simp at heq

theorem take?_closed {c : String} {q : Queued} (h : s.take? c = some (q, s')) (c' : String) :
    (s'.clientAt c').sendCh.closed = (s.clientAt c').sendCh.closed := by
  obtain ⟨ch, hpop, rfl⟩ := take?_eq_some h
  exact closed_modifyClient (Go.Chan.pop?_eq_some hpop).2 c'

theorem take?_roomAt {c : String} {q : Queued} (h : s.take? c = some (q, s')) :
    s'.roomAt = s.roomAt := by
  obtain ⟨ch, -, rfl⟩ := take?_eq_some h
  rfl

theorem take?_rooms {c : String} {q : Queued} (h : s.take? c = some (q, s')) :
    s'.rooms = s.rooms := by
  obtain ⟨ch, -, rfl⟩ := take?_eq_some h
  rfl

theorem Housed.take? {c : String} {q : Queued} (hs : Housed u s) (h : s.take? c = some (q, s')) :
    Housed u s' where
  toBase := hs.toBase.take? h
  nodup r := by
    rw [take?_roomAt h]
    exact hs.nodup r
  unique hc hc' := by
    rw [take?_roomAt h] at hc hc'
    exact hs.unique hc hc'
  opened hc := by
    rw [take?_roomAt h] at hc
    rw [take?_closed h]
    exact hs.opened hc

/-! ### What brings the service down -/

/-- Closing open queues, each once, does no harm. -/
theorem closeClients_panicked {cs : List String} (hnodup : cs.Nodup)
    (hopen : ∀ c ∈ cs, (s.clientAt c).sendCh.closed = false) :
    (cs.foldl closeClient s).panicked = s.panicked := by
  induction cs generalizing s with
  | nil => rfl
  | cons c cs ih =>
    obtain ⟨hc, hnodup⟩ := List.nodup_cons.mp hnodup
    have hclose : s.closeClient c = s.modifyClient c fun cl =>
        { cl with sendCh := cl.sendCh.close } :=
      if_neg (by simp [hopen c List.mem_cons_self])
    rw [List.foldl_cons, ih hnodup, hclose]
    · rfl
    · intro c' hc'
      have hne : c' ≠ c := fun h => hc (h ▸ hc')
      rw [hclose, modifyClient_clientAt_of_ne s _ hne]
      exact hopen c' (List.mem_cons_of_mem _ hc')

/-- Only a put on a closed queue and the end of a session can bring the service down. -/
theorem Effect.panicked {o : ServiceOp} (h : Effect u g s o s') (hup : s.panicked = false)
    (hdown : s'.panicked = true) :
    (∃ c e k, o = .put c e k ∧ (s.clientAt c).sendCh.closed = true) ∨
      ∃ r, o = .closeAllClients r ∧ s' = s.closeAllClients r := by
  have hsame : s'.panicked = s.panicked → False := fun heq =>
    Bool.false_ne_true (hup.symm.trans (heq.symm.trans hdown))
  cases h with
  | side h _ _ => exact (hsame h.panicked).elim
  | create sid =>
    refine (hsame ?_).elim
    unfold getOrCreateRoom
    split <;> rfl
  | deliver c e =>
    refine (hsame ?_).elim
    unfold beginDeliver
    dsimp only
    split <;> rfl
  | put c e k hput =>
    rcases put?_eq_some hput with ⟨hclosed, rfl⟩ | ⟨ch, -, rfl⟩
    · exact Or.inl ⟨c, e, k, rfl, hclosed⟩
    · exact (hsame rfl).elim
  | closeAll r hfree => exact Or.inr ⟨r, rfl, rfl⟩
  | room _ _ _ _ _ _ _ | join _ _ _ _ _ _ | announce _ _ | answer _ _ _ _ _ _ | leave _ _ _
  | transfer _ _ _ | slow _ _ => exact (hsame rfl).elim

/-- A step that puts to clients of a room only keeps the service up. -/
theorem Housed.panicked {n : Nat} {o : ServiceOp} {a : o.Res} (hs : Housed u s)
    (hup : s.panicked = false)
    (hput : ∀ c e k, o = .put c e k → (s.clientAt c).sendCh.closed = false)
    (h : o.apply u g n s = some (s', a)) : s'.panicked = false := by
  refine Bool.eq_false_of_not_eq_true fun hdown => ?_
  rcases (apply_effect h).panicked hup hdown with ⟨c, e, k, rfl, hclosed⟩ | ⟨r, -, rfl⟩
  · rw [hput c e k rfl] at hclosed
    exact Bool.false_ne_true hclosed
  · have hkept : (s.closeAllClients r).panicked = s.panicked :=
      closeClients_panicked (hs.nodup r) fun c hc => hs.opened hc
    exact Bool.false_ne_true (hup.symm.trans (hkept.symm.trans hdown))

theorem take?_panicked {c : String} {q : Queued} (h : s.take? c = some (q, s')) :
    s'.panicked = s.panicked := by
  obtain ⟨ch, -, rfl⟩ := take?_eq_some h
  rfl

end CollabService

end MassRelay

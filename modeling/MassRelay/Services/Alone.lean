import MassRelay.Services.Handlers
import MassRelay.Services.Traffic

/-!
# MassRelay.Services.Alone

The programs of `MassRelay.Services.Call`, run without interruption, are the handlers of
`MassRelay.Services.CollabService`.

A service whose calls do not overlap is `Calm` between two of them: nothing is locked, no
goroutine is acting for a client, and whoever is in a room has an open channel. From such a
state every program runs to its end, and ends in the state, and with the answer, that the
handler of its name computes (`handleAction_runs`, `deliverAppMessage_runs`). So what is
proved of serial runs is proved of the runs of the service in which nothing comes between
the steps of a call (`serveAll_runs`).
-/

namespace MassRelay

namespace CollabService

variable {u : UuidSource} {s s' s₁ : CollabService} {g : Goroutine} {o : ServiceOp} {n : Nat}
variable {r : RoomRef} {c x sid : String} {e : CollabEvent} {α β : Type}

/-- Nothing is locked, and nobody acts for a client: no call is under way, or a single one
outside of its broadcasts. -/
structure Calm (u : UuidSource) (s : CollabService) : Prop extends Housed u s where
  up : s.panicked = false
  free : ∀ r, (s.roomAt r).readers = ∅
  idle : ∀ g, s.acting g = none

/-- A step outside of a broadcast, of a call that knows its room. -/
def solo : ServiceOp → Bool
  | .findRoomForClient _ | .handled | .rlock .. | .runlock _ | .beginDeliver .. | .put ..
  | .markSlow .. => false
  | _ => true

theorem free_update {rooms : RoomRef → CollabRoom} {room : CollabRoom}
    (hs : ∀ r, (rooms r).readers = ∅) (hroom : room.readers = ∅) (r' : RoomRef) :
    (Function.update rooms r room r').readers = ∅ := by
  by_cases hr : r' = r
  · subst hr
    rw [Function.update_self, hroom]
  · rw [Function.update_of_ne hr, hs]

/-- Only a broadcast locks a room across steps. -/
theorem apply_free {a : o.Res} (ho : solo o = true) (hs : ∀ r, (s.roomAt r).readers = ∅)
    (h : o.apply u g n s = some (s', a)) : ∀ r, (s'.roomAt r).readers = ∅ := by
  cases o with
  | findRoomForClient _ | handled | rlock _ _ | runlock _ | beginDeliver _ _ | put _ _ _
  | markSlow _ _ => simp [solo] at ho
  | getOrCreateRoom sid =>
    obtain ⟨rfl, -⟩ := Prod.mk.inj (Option.some.inj h)
    intro r
    rcases getOrCreateRoom_cases s sid with ⟨r', -, heq⟩ | ⟨-, -, -, hrooms, -⟩
    · rw [heq, hs]
    · rw [hrooms]
      exact free_update hs rfl r
  | removeRoom r =>
    obtain ⟨rfl, -⟩ := Prod.mk.inj (Option.some.inj h)
    rw [(SideStep.removeRoom g s _).roomAt]
    exact hs
  | ownedElsewhere _ _ =>
    obtain ⟨rfl, -⟩ := Prod.mk.inj (lock_eq_some h).2
    exact hs
  | closeAllClients r =>
    obtain ⟨rfl, -⟩ := Prod.mk.inj (lock_eq_some h).2
    have hclosed : ∀ r', (((s.roomAt r).clients.foldl closeClient s).roomAt r').readers = ∅ := by
      rw [closeClients_roomAt]
      exact hs
    refine fun r' => free_update hclosed ?_ r'
    exact hclosed r
  | setEncrypted r _ | addClient r _ _ _ _ | claimRoom r _ _ | removeClient r _ | transferOwner r _
  | setTitle r _ =>
    obtain ⟨rfl, -⟩ := Prod.mk.inj (lock_eq_some h).2
    refine fun r' => free_update hs ?_ r'
    exact hs r
  | _ =>
    obtain ⟨rfl, -⟩ := Prod.mk.inj (Option.some.inj h)
    exact hs

theorem Calm.apply {a : o.Res} (hs : Calm u s) (ho : solo o = true)
    (h : o.apply u g n s = some (s', a)) : Calm u s' where
  toHoused := hs.toHoused.apply h
  up := by
    refine hs.toHoused.panicked hs.up ?_ h
    rintro c e k rfl
    simp [solo] at ho
  free := apply_free ho hs.free h
  idle g' := by
    by_cases hg : g' = g
    · subst hg
      rw [(apply_effect h).acting]
      cases o <;> first | exact hs.idle g' | simp [solo] at ho
    · rw [((apply_effect h).rely hg).acting, hs.idle]

/-! ### Running alone -/

/-- From `s`, goroutine `g` runs the program to its end, and the service is calm again. -/
structure Alone (u : UuidSource) (g : Goroutine) (p : Call α) (s : CollabService) (a : α)
    (s' : CollabService) : Prop where
  runs : p.Runs (ServiceOp.exec u g) s a s'
  calm : Calm u s'

namespace Alone

theorem ret (hs : Calm u s) (a : α) : Alone u g (.ret a) s a s := ⟨⟨rfl, rfl⟩, hs⟩

theorem bind {p : Call α} {f : α → Call β} {a : α} {b : β} (hp : Alone u g p s a s₁)
    (hf : Calm u s₁ → Alone u g (f a) s₁ b s') : Alone u g (p >>= f) s b s' :=
  ⟨hp.runs.bind (hf hp.calm).runs, (hf hp.calm).calm⟩

theorem perform {a : o.Res} (hs : Calm u s) (ho : solo o = true)
    (hx : o.apply u g n s = some (s', a)) : Alone u g (Call.perform o) s a s' :=
  ⟨⟨n, s', a, (if_neg (by simp [hs.up])).trans hx, rfl, rfl⟩, hs.apply ho hx⟩

/-- A step, and what comes after it. -/
theorem step {a : o.Res} {f : o.Res → Call β} {b : β} (hs : Calm u s) (ho : solo o = true)
    (hx : o.apply u g 0 s = some (s₁, a)) (hf : Calm u s₁ → Alone u g (f a) s₁ b s') :
    Alone u g (Call.perform o >>= f) s b s' :=
  .bind (.perform hs ho hx) hf

theorem onlyIf {b : Prop} [Decidable b] {p : Call Unit} (hs : Calm u s)
    (hp : b → Alone u g p s () s') :
    Alone u g (Prog.onlyIf b p) s () (if b then s' else s) := by
  unfold Prog.onlyIf
  split
  · rename_i hb
    exact hp hb
  · exact .ret hs ()

end Alone

/-- A section under the lock of a room is not blocked. -/
theorem Calm.lock (hs : Calm u s) (r : RoomRef) (result : CollabService × α) :
    s.lock r result = some result := if_pos (hs.free r)

/-! ### Broadcasts -/

theorem deliver_runs (hup : s.panicked = false) (hopen : (s.clientAt c).sendCh.closed = false) :
    (Call.deliver c e).Runs (ServiceOp.exec u g) s () (s.deliver g c e) ∧
      (s.deliver g c e).panicked = false := by
  have hbegin : (s.beginDeliver g c e).1.panicked = false ∧
      ((s.beginDeliver g c e).1.clientAt c).sendCh.closed = false := by
    unfold beginDeliver
    dsimp only
    split <;> exact ⟨hup, hopen⟩
  have hexec : ∀ {o : ServiceOp} {s : CollabService}, s.panicked = false →
      ServiceOp.exec u g 0 o s = o.apply u g 0 s := fun h => if_neg (by simp [h])
  -- the steps of the call are the branches of `deliver`: skipped, dropped, queued
  cases hb : s.beginDeliver g c e with
  | mk s₁ call =>
    rw [hb] at hbegin
    have hstart : ServiceOp.exec u g 0 (.beginDeliver c e) s = some (s₁, call) := by
      rw [hexec hup, ServiceOp.apply, hb]
    cases call with
    | none =>
      have hdeliver : s.deliver g c e = s₁ := by
        unfold deliver
        rw [hb]
      rw [hdeliver]
      exact ⟨⟨0, s₁, none, hstart, rfl, rfl⟩, hbegin.1⟩
    | some k =>
      have hdeliver : s.deliver g c e = (s₁.put? g c e k).getD (s₁.markSlow c k) := by
        unfold deliver
        rw [hb]
      rw [hdeliver]
      have hput : ServiceOp.exec u g 0 (.put c e k) s₁ =
          some ((s₁.put? g c e k).getD s₁, (s₁.put? g c e k).isSome) := hexec hbegin.1
      cases hp : s₁.put? g c e k with
      | none =>
        rw [hp] at hput
        exact ⟨⟨0, s₁, some k, hstart, 0, s₁, false, hput, 0, s₁.markSlow c k, (), hexec hbegin.1,
          rfl, rfl⟩, hbegin.1⟩
      | some s₂ =>
        rw [hp] at hput
        refine ⟨⟨0, s₁, some k, hstart, 0, s₂, true, hput, rfl, rfl⟩, ?_⟩
        rcases put?_eq_some hp with ⟨hclosed, -⟩ | ⟨ch, -, rfl⟩
        · exact absurd (hbegin.2.symm.trans hclosed) Bool.false_ne_true
        · exact hbegin.1

theorem deliverEach_runs {targets : List (String × CollabEvent)} (hup : s.panicked = false)
    (hopen : ∀ t ∈ targets, (s.clientAt t.1).sendCh.closed = false) :
    (Call.deliverEach targets).Runs (ServiceOp.exec u g) s () (s.deliverAll g targets) ∧
      (s.deliverAll g targets).panicked = false := by
  induction targets generalizing s with
  | nil => exact ⟨⟨rfl, rfl⟩, hup⟩
  | cons t targets ih =>
    obtain ⟨hruns, hup₁⟩ := deliver_runs (u := u) (g := g) (e := t.2) hup
      (hopen t List.mem_cons_self)
    obtain ⟨hrest, hup'⟩ := ih hup₁ fun t' ht' => by
      rw [(SendsOnly.deliver g s t.1 t.2).closed]
      exact hopen t' (List.mem_cons_of_mem _ ht')
    exact ⟨hruns.bind hrest, hup'⟩

theorem deliver_modifyRoom (g : Goroutine) (s : CollabService) (r : RoomRef)
    (f : CollabRoom → CollabRoom) (c : String) (e : CollabEvent) :
    (s.modifyRoom r f).deliver g c e = (s.deliver g c e).modifyRoom r f := by
  have hclient : (s.modifyRoom r f).clientAt = s.clientAt := rfl
  have hsent : (s.modifyRoom r f).sent = s.sent := rfl
  unfold deliver beginDeliver
  rw [hclient, hsent]
  cases (s.clientAt c).slow with
  | true => rfl
  | false =>
    simp only [Bool.false_eq_true, if_false, put?]
    cases (s.clientAt c).sendCh.closed with
    | true => rfl
    | false =>
      simp only [Bool.false_eq_true, if_false]
      cases (s.clientAt c).sendCh.push? _ <;> rfl

theorem deliverAll_modifyRoom (g : Goroutine) (s : CollabService) (r : RoomRef)
    (f : CollabRoom → CollabRoom) (targets : List (String × CollabEvent)) :
    (s.modifyRoom r f).deliverAll g targets = (s.deliverAll g targets).modifyRoom r f := by
  unfold deliverAll
  induction targets generalizing s with
  | nil => rfl
  | cons t targets ih => rw [List.foldl_cons, List.foldl_cons, deliver_modifyRoom, ih]

theorem runlock_modifyRoom (hfree : (s.roomAt r).readers = ∅) :
    (s.modifyRoom r fun room => { room with readers := insert g room.readers }).runlock g r =
      s := by
  have hreaders : (insert g (s.roomAt r).readers).erase g = (s.roomAt r).readers := by
    rw [hfree]
    exact Finset.erase_insert (Finset.notMem_empty g)
  unfold runlock modifyRoom
  simp only [Function.update_self, Function.update_idem]
  rw [hreaders, Function.update_eq_self]

/-- The state a broadcast delivers from: that a client is announced is on record. -/
def noteRange (s : CollabService) : Range → CollabService
  | .announce c => s.noteProgress c .announced
  | _ => s

theorem SendsOnly.noteRange (s : CollabService) (range : Range) :
    SendsOnly s (s.noteRange range) := by
  cases range with
  | announce c => exact .noteProgress s c .announced
  | _ => exact .refl s

/-- A broadcast that nobody interrupts unlocks the room again. -/
theorem broadcast_alone {range : Range} {targets missing : List String} (hs : Calm u s)
    (build : String → CollabEvent) (h : s.rangeTargets r n range = (targets, missing)) :
    Alone u g (Call.broadcast r range build) s missing
      ((s.noteRange range).deliverAll g (targets.map fun c => (c, build c))) := by
  have hsends := (SendsOnly.noteRange s range).trans
    (.deliverAll g _ (targets.map fun c => (c, build c)))
  have hlocked : s.rlock g r range = (s.noteRange range).modifyRoom r fun room =>
      { room with readers := insert g room.readers } := by
    cases range <;> rfl
  have hunlocked : ((s.rlock g r range).deliverAll g (targets.map fun c => (c, build c))).runlock
      g r = (s.noteRange range).deliverAll g (targets.map fun c => (c, build c)) := by
    rw [hlocked, deliverAll_modifyRoom, runlock_modifyRoom]
    rw [hsends.roomAt]
    exact hs.free r
  have hopen : ∀ t ∈ targets.map fun c => (c, build c),
      ((s.rlock g r range).clientAt t.1).sendCh.closed = false := by
    intro t ht
    obtain ⟨c, hc, rfl⟩ := List.mem_map.mp ht
    rw [hlocked, modifyRoom_clientAt, (SendsOnly.noteRange s range).closed]
    exact hs.opened (mem_rangeTargets (by rw [h]; exact hc))
  obtain ⟨hruns, hup⟩ := deliverEach_runs (u := u) (g := g) (by cases range <;> exact hs.up) hopen
  have hstart : ServiceOp.exec u g n (.rlock r range) s =
      some (s.rlock g r range, (targets, missing)) := by
    rw [ServiceOp.exec, if_neg (by simp [hs.up]), ServiceOp.apply, h]
  have hall : (Call.broadcast r range build).Runs (ServiceOp.exec u g) s missing
      ((s.noteRange range).deliverAll g (targets.map fun c => (c, build c))) :=
    ⟨n, _, (targets, missing), hstart, hruns.bind
      ⟨0, _, (), if_neg (by simp [hup]), rfl, hunlocked⟩⟩
  refine ⟨hall, { hall.invariant (fun hx hs => hs.apply (exec_eq_some hx).2) hs.toHoused with
    up := ?_, free := ?_, idle := ?_ }⟩
  · rw [← hunlocked]
    exact hup
  · rw [hsends.roomAt]
    exact hs.free
  · have hacting : _ = s.acting := hsends.field CollabService.acting
    exact fun g => (congrFun hacting g).trans (hs.idle g)

theorem rangeOrder_self (l : List String) : ∃ n, rangeOrder n l = l := ⟨_, rangeOrder_length l⟩

theorem toAll_alone (hs : Calm u s) (r : RoomRef) (e : CollabEvent) :
    Alone u g (Call.broadcast r .all fun _ => e) s [] (s.broadcastToAll g r e) := by
  obtain ⟨n, hn⟩ := rangeOrder_self (s.roomAt r).clients
  exact broadcast_alone (n := n) hs (fun _ => e) (by rw [rangeTargets, hn])

theorem toOthers_alone (hs : Calm u s) (r : RoomRef) (x : String) (e : CollabEvent) :
    Alone u g (Call.broadcast r (.except x) fun _ => e) s [] (s.broadcastExcept g r e x) := by
  obtain ⟨n, hn⟩ := rangeOrder_self (s.exceptTargets r x)
  exact broadcast_alone (n := n) hs (fun _ => e) (by rw [rangeTargets, hn])

theorem announce_alone (hs : Calm u s) (r : RoomRef) (x : String) (e : CollabEvent) :
    Alone u g (Call.broadcast r (.announce x) fun _ => e) s []
      ((s.noteProgress x .announced).broadcastExcept g r e x) := by
  obtain ⟨n, hn⟩ := rangeOrder_self (s.exceptTargets r x)
  have htargets : (s.noteProgress x .announced).exceptTargets r x = s.exceptTargets r x := by
    unfold exceptTargets
    simp only [(SameRooms.noteProgress s x .announced).info]
    rfl
  rw [broadcastExcept, htargets]
  exact broadcast_alone (n := n) hs (fun _ => e) (by rw [rangeTargets, hn])

theorem addressed_alone (hs : Calm u s) (r : RoomRef) (eventId x : String) (msg : AppMessage) :
    Alone u g (Call.broadcast r (.each msg.toClientIds) (addressedEvent eventId x msg)) s
      (s.deliverAddressed g r eventId x msg).2 (s.deliverAddressed g r eventId x msg).1 :=
  broadcast_alone (n := 0) hs _ rfl

/-! ### Joining -/

theorem error_alone (hs : Calm u s) (code message : String) :
    Alone u g (Call.error code message) s (.event (errorEvent (s.uuid u) code message)) s.tick :=
  .step hs rfl rfl fun hs => .ret hs _

theorem resolveSession_alone (hs : Calm u s) (join : JoinRoom) :
    Alone u g (Call.resolveSession join) s (s.resolveSession u join).1
      (s.resolveSession u join).2 := by
  have huuid : Alone u g Call.uuid s (s.uuid u) s.tick := .perform (n := 0) hs rfl rfl
  unfold Call.resolveSession resolveSession
  split
  · exact .ret hs _
  · by_cases hhint : join.clientHint ≠ ""
    · simp only [if_pos hhint]
      refine .step hs rfl rfl fun hs => ?_
      split
      · exact .ret hs _
      · exact huuid
    · simp only [if_neg hhint, ne_eq, not_true, if_false]
      exact huuid

theorem indexHint_alone (hs : Calm u s) (clientHint sid : String) :
    Alone u g (Prog.onlyIf (clientHint ≠ "") (Call.perform (.indexHint clientHint sid))) s ()
      (s.indexHint clientHint sid) :=
  .onlyIf hs fun _ => .perform (n := 0) hs rfl rfl

theorem lacksRoom_alone (hs : Calm u s) (join : JoinRoom) (sid : String) :
    Alone u g (Call.lacksRoom join sid) s (join.mustExist && (s.getRoomByID sid).isNone) s := by
  unfold Call.lacksRoom
  split
  · rename_i hmust
    rw [hmust, Bool.true_and]
    exact .step hs rfl rfl fun hs => .ret hs _
  · rename_i hmust
    rw [Bool.eq_false_of_not_eq_true hmust, Bool.false_and]
    exact .ret hs _

theorem accept_alone (hs : Calm u s) (ctx : Ctx) (join : JoinRoom) (sid : String) (r : RoomRef) :
    Alone u g (Call.accept ctx join sid r (s.roomAt r).encrypted) s
      (s.accept u g ctx join sid r).2 (s.accept u g ctx join sid r).1 := by
  refine .step hs rfl rfl fun hs => ?_
  refine .step hs rfl (hs.lock r _) fun hs => ?_
  refine .step hs rfl (hs.lock r _) fun hs => ?_
  refine .step hs rfl rfl fun hs => ?_
  refine .step hs rfl rfl fun hs => ?_
  refine .bind (announce_alone hs r _ _) fun hs => ?_
  refine .step hs rfl rfl fun hs => ?_
  exact .step hs rfl rfl fun hs => .ret hs _

theorem checkEncryption_alone (hs : Calm u s) (ctx : Ctx) (join : JoinRoom) (sid : String)
    (r : RoomRef) (hfull : s.isFull r = false)
    (howner : (join.isOwner && s.ownedElsewhere r join.browserId) = false) :
    Alone u g (Call.checkEncryption ctx join sid r) s (s.enterRoom u g ctx join sid r).2
      (s.enterRoom u g ctx join sid r).1 := by
  have hdeclare : Alone u g (Prog.onlyIf (join.isOwner && join.encrypted)
      (Call.perform (.setEncrypted r true))) s () (s.declareEncrypted r join) :=
    .onlyIf hs fun _ => .perform (n := 0) hs rfl (hs.lock r _)
  simp only [enterRoom, hfull, howner, Bool.false_eq_true, if_false]
  refine .bind hdeclare fun hs => .step hs rfl rfl fun hs => ?_
  split
  · exact error_alone hs _ _
  · exact accept_alone hs ctx join sid r

theorem enterRoom_alone (hs : Calm u s) (ctx : Ctx) (join : JoinRoom) (sid : String)
    (r : RoomRef) : Alone u g (Call.enterRoom ctx join sid r) s (s.enterRoom u g ctx join sid r).2
      (s.enterRoom u g ctx join sid r).1 := by
  refine .step hs rfl rfl fun hs => ?_
  split
  · rename_i hfull
    rw [enterRoom, if_pos hfull]
    exact .step hs rfl rfl fun hs => error_alone hs _ _
  · rename_i hfull
    have hfull := Bool.eq_false_of_not_eq_true hfull
    split
    · rename_i howner
      refine .step hs rfl (hs.lock r _) fun hs => ?_
      split
      · rename_i helsewhere
        rw [enterRoom, if_neg (by simp [hfull]), if_pos (by simp [howner, helsewhere])]
        exact .ret hs _
      · rename_i helsewhere
        exact checkEncryption_alone hs ctx join sid r hfull (by simp [helsewhere])
    · rename_i howner
      exact checkEncryption_alone hs ctx join sid r hfull (by simp [howner])

theorem handleJoin_alone (hs : Calm u s) (ctx : Ctx) (join : JoinRoom) :
    Alone u g (Call.handleJoin ctx join) s (s.handleJoin u g ctx join).2
      (s.handleJoin u g ctx join).1 := by
  unfold Call.handleJoin handleJoin
  split
  · exact error_alone hs _ _
  · have hresolve := resolveSession_alone (g := g) hs join
    cases hsession : s.resolveSession u join with
    | mk sid s₁ =>
      rw [hsession] at hresolve
      dsimp only
      refine .bind hresolve fun hs => ?_
      refine .bind (indexHint_alone hs join.clientHint sid) fun hs => ?_
      refine .bind (lacksRoom_alone hs join sid) fun hs => ?_
      split
      · exact error_alone hs _ _
      · exact .step hs rfl rfl fun hs => enterRoom_alone hs ctx join sid _

/-! ### Leaving -/

theorem announceLeft_alone (hs : Calm u s) (x reason : String) (r : RoomRef) (count : Nat) :
    Alone u g (Call.announceLeft x reason r count) s (s.announceLeft u g x reason r count).2
      (s.announceLeft u g x reason r count).1 := by
  refine .step hs rfl rfl fun hs => ?_
  refine .bind (toAll_alone hs r _) fun hs => ?_
  refine .bind (.onlyIf hs fun _ => .perform (n := 0) hs rfl rfl) fun hs => ?_
  exact .step hs rfl rfl fun hs => .ret hs _

theorem endRoom_alone (hs : Calm u s) (x : String) (r : RoomRef) :
    Alone u g (Call.endRoom x r) s (s.endRoom u g x r).2 (s.endRoom u g x r).1 := by
  refine .step hs rfl rfl fun hs => ?_
  refine .bind (toAll_alone hs r _) fun hs => ?_
  refine .step hs rfl (hs.lock r _) fun hs => ?_
  refine .step hs rfl rfl fun hs => ?_
  exact .step hs rfl rfl fun hs => .ret hs _

theorem findSuccessor_alone (hs : Calm u s) (r : RoomRef) (browserId x : String) (pick : Nat) :
    Alone u g (Call.findSuccessor r browserId x) s (s.findSuccessor r browserId x pick) s := by
  unfold Call.findSuccessor findSuccessor
  split
  · exact .perform (n := pick) hs rfl rfl
  · exact .ret hs none

/-- What a leave does once it knows the room. -/
theorem leaveRoom_alone (hs : Calm u s) (x : String) (leave : LeaveRoom) (pick : Nat)
    (hfind : s.findRoomForClient x = some r) :
    Alone u g (do
      let (isOwner, browserId) ← Call.perform (.leaverFlags r x)
      Call.perform (.removeClient r x)
      let remainingCount ← Call.perform (.clientCount r)
      if isOwner && remainingCount > 0 then
        Call.leaveOwner x leave.reason r browserId remainingCount
      else Call.announceLeft x leave.reason r remainingCount) s
      (s.handleLeave u g x leave pick).2 (s.handleLeave u g x leave pick).1 := by
  unfold handleLeave
  simp only [hfind]
  cases hflags : s.leaverFlags r x with
  | mk isOwner browserId =>
    refine .step (a := (isOwner, browserId)) hs rfl (by rw [ServiceOp.apply, hflags]) fun hs => ?_
    refine .step hs rfl (hs.lock r _) fun hs => ?_
    refine .step hs rfl rfl fun hs => ?_
    split
    · refine .bind (findSuccessor_alone hs r browserId x pick) fun hs => ?_
      cases hsuccessor : (s.removeLeft r x).findSuccessor r browserId x pick with
      | none => exact endRoom_alone hs x r
      | some successor =>
        refine .step hs rfl (hs.lock r _) fun hs => ?_
        refine .step hs rfl rfl fun hs => ?_
        refine .step hs rfl rfl fun hs => ?_
        refine .bind (toAll_alone hs r _) fun hs => ?_
        exact announceLeft_alone hs x leave.reason r _
    · exact announceLeft_alone hs x leave.reason r _

/-! ### Relaying -/

theorem noteRelayed_alone (hs : Calm u s) (r : RoomRef) (action : Action) :
    Alone u g (Call.noteRelayed r action) s () (s.noteRelayed r action) := by
  cases action with
  | credentialsChanged cc =>
    simp only [Call.noteRelayed, noteRelayed]
    split
    · exact .perform (n := 0) hs rfl (hs.lock r _)
    · exact .ret hs ()
  | titleChanged tc => exact .perform (n := 0) hs rfl (hs.lock r _)
  | _ => exact .ret hs ()

/-- What a broadcast action does once it knows the room. -/
theorem relayIn_alone (hs : Calm u s) (x : String) (action : Action)
    (hfind : s.findRoomForClient x = some r) :
    Alone u g (do
      let eventId ← Call.uuid
      match relayed action with
      | none => return .err "unsupported broadcast action type"
      | some event =>
        Call.noteRelayed r action
        Call.relay x r action eventId event) s
      (s.handleBroadcast u g x action).2 (s.handleBroadcast u g x action).1 := by
  unfold handleBroadcast
  simp only [hfind]
  refine .step hs rfl rfl fun hs => ?_
  cases hrelayed : relayed action with
  | none => exact .ret hs _
  | some event =>
    refine .bind (noteRelayed_alone hs r action) fun hs => ?_
    unfold Call.relay
    cases haddressed : addressed? action with
    | none =>
      refine .bind (toOthers_alone hs r x _) fun hs => ?_
      exact .step hs rfl rfl fun hs => .ret hs _
    | some msg =>
      have hdeliver := addressed_alone (g := g) hs r (s.uuid u) x msg
      dsimp only
      cases hsent : deliverAddressed g (s.tick.noteRelayed r action) r (s.uuid u) x msg with
      | mk s₁ missing =>
        rw [hsent] at hdeliver
        refine .bind hdeliver fun hs => .step hs rfl rfl fun hs => ?_
        split
        · exact .ret hs _
        · exact error_alone hs _ _

/-! ### Whole calls

What a goroutine is acting for is a history variable. A step may write it, and none reads
it, so that a run is the same whatever it was at the start. -/

theorem noteActing_noteActing (s : CollabService) (act act' : Option (String × RoomRef)) :
    (s.noteActing g act).noteActing g act' = s.noteActing g act' := by
  simp only [noteActing, Function.update_idem]

theorem Calm.noteActing (hs : Calm u s) : s.noteActing g none = s := by
  rw [CollabService.noteActing, ← hs.idle g, Function.update_eq_self]

theorem eachLoop_noteActing (s : CollabService) (act : Option (String × RoomRef)) (r : RoomRef)
    (ids seen : List String) : (s.noteActing g act).eachLoop r ids seen =
    s.eachLoop r ids seen := by
  have hroom : (s.noteActing g act).roomAt = s.roomAt := rfl
  induction ids generalizing seen with
  | nil => rfl
  | cons id ids ih => simp only [eachLoop, hroom, ih]

theorem removeRoom_noteActing (s : CollabService) (act : Option (String × RoomRef)) (sid : String) :
    (s.noteActing g act).removeRoom sid = (s.removeRoom sid).noteActing g act := by
  have hrooms : (s.noteActing g act).rooms = s.rooms := rfl
  have hempty : (s.noteActing g act).isEmpty = s.isEmpty := rfl
  unfold removeRoom
  rw [hrooms, hempty]
  cases s.rooms.lookup sid with
  | none => rfl
  | some r =>
    dsimp only
    split <;> rfl

theorem closeClients_noteActing (s : CollabService) (act : Option (String × RoomRef))
    (cs : List String) :
    cs.foldl closeClient (s.noteActing g act) = (cs.foldl closeClient s).noteActing g act := by
  induction cs generalizing s with
  | nil => rfl
  | cons c cs ih =>
    have hclose : (s.noteActing g act).closeClient c = (s.closeClient c).noteActing g act := by
      have hclient : (s.noteActing g act).clientAt = s.clientAt := rfl
      unfold closeClient
      rw [hclient]
      split <;> rfl
    rw [List.foldl_cons, List.foldl_cons, hclose, ih]

theorem lock_noteActing {a : α} {result : CollabService × α} (act : Option (String × RoomRef))
    (h : s.lock r result = some (s', a)) : (s.noteActing g act).lock r
      (result.1.noteActing g act, result.2) = some (s'.noteActing g act, a) := by
  obtain ⟨hfree, rfl⟩ := lock_eq_some h
  exact if_pos hfree

theorem apply_noteActing {a : o.Res} (act : Option (String × RoomRef))
    (h : o.apply u g n s = some (s', a)) :
    ∃ act', o.apply u g n (s.noteActing g act) = some (s'.noteActing g act', a) := by
  cases o with
  | findRoomForClient c =>
    obtain ⟨rfl, rfl⟩ := Prod.mk.inj (Option.some.inj h)
    refine ⟨(s.findRoomForClient c).map fun r => (c, r), ?_⟩
    rw [noteActing_noteActing, ServiceOp.apply, noteActing_noteActing]
    rfl
  | handled =>
    obtain ⟨rfl, rfl⟩ := Prod.mk.inj (Option.some.inj h)
    refine ⟨none, ?_⟩
    rw [noteActing_noteActing, ServiceOp.apply, noteActing_noteActing]
  | getOrCreateRoom sid =>
    obtain ⟨rfl, rfl⟩ := Prod.mk.inj (Option.some.inj h)
    have hrooms : (s.noteActing g act).rooms = s.rooms := rfl
    refine ⟨act, ?_⟩
    simp only [ServiceOp.apply, getOrCreateRoom, hrooms]
    cases s.rooms.lookup sid <;> rfl
  | removeRoom r =>
    obtain ⟨rfl, rfl⟩ := Prod.mk.inj (Option.some.inj h)
    exact ⟨act, congrArg (fun s => some (s, ())) (removeRoom_noteActing s act _)⟩
  | beginDeliver c e =>
    obtain ⟨rfl, rfl⟩ := Prod.mk.inj (Option.some.inj h)
    have hclient : (s.noteActing g act).clientAt = s.clientAt := rfl
    refine ⟨act, ?_⟩
    simp only [ServiceOp.apply, beginDeliver, hclient]
    split <;> rfl
  | put c e k =>
    obtain ⟨rfl, rfl⟩ := Prod.mk.inj (Option.some.inj h)
    have hclient : (s.noteActing g act).clientAt = s.clientAt := rfl
    refine ⟨act, ?_⟩
    simp only [ServiceOp.apply, put?, hclient]
    split
    · rfl
    · cases (s.clientAt c).sendCh.push? ⟨e, g, k⟩ <;> rfl
  | closeAllClients r =>
    refine ⟨act, ?_⟩
    have hclosed := closeClients_noteActing (g := g) s act (s.roomAt r).clients
    have hlock := lock_noteActing (g := g) act h
    rw [ServiceOp.apply, closeAllClients]
    rw [closeAllClients] at hlock
    have hroom : (s.noteActing g act).roomAt = s.roomAt := rfl
    rw [hroom, hclosed]
    exact hlock
  | ownedElsewhere _ _ | setEncrypted _ _ | addClient _ _ _ _ _ | claimRoom _ _ _
  | removeClient _ _ | transferOwner _ _ | setTitle _ _ => exact ⟨act, lock_noteActing act h⟩
  | rlock r range =>
    obtain ⟨rfl, rfl⟩ := Prod.mk.inj (Option.some.inj h)
    refine ⟨act, ?_⟩
    cases range with
    | each ids =>
      rw [ServiceOp.apply, rangeTargets, eachLoop_noteActing]
      rfl
    | _ => rfl
  | _ =>
    obtain ⟨rfl, rfl⟩ := Prod.mk.inj (Option.some.inj h)
    exact ⟨act, rfl⟩

/-- The run of a call, up to what its goroutine acts for at its end. -/
structure Routed (u : UuidSource) (g : Goroutine) (p : Call α) (s : CollabService) (a : α)
    (s' : CollabService) : Prop where
  runs : ∃ act, p.Runs (ServiceOp.exec u g) s a (s'.noteActing g act)
  calm : Calm u s'

theorem Alone.routed {p : Call α} {a : α} (h : Alone u g p s a s') : Routed u g p s a s' :=
  ⟨⟨none, by rw [h.calm.noteActing]; exact h.runs⟩, h.calm⟩

/-- A call that starts by looking for the room of its client. -/
theorem Routed.find {f : Option RoomRef → Call α} {a : α} (hs : Calm u s) (x : String)
    (hf : Alone u g (f (s.findRoomForClient x)) s a s') :
    Routed u g (Call.perform (.findRoomForClient x) >>= f) s a s' := by
  have hexec : ∀ {n : Nat} {o : ServiceOp} {s s' t : CollabService} {a : o.Res},
      (∃ act, t = s.noteActing g act) → ServiceOp.exec u g n o s = some (s', a) →
      ∃ t', ServiceOp.exec u g n o t = some (t', a) ∧ ∃ act, t' = s'.noteActing g act := by
    rintro n o s s' _ a ⟨act, rfl⟩ hx
    obtain ⟨hup, happly⟩ := exec_eq_some hx
    obtain ⟨act', happly'⟩ := apply_noteActing act happly
    exact ⟨_, (if_neg (by simp [CollabService.noteActing, hup])).trans happly', act', rfl⟩
  obtain ⟨_, hruns, act, rfl⟩ := hf.runs.simulate hexec
    ⟨(s.findRoomForClient x).map fun r => (x, r), rfl⟩
  exact ⟨⟨act, 0, _, _, if_neg (by simp [hs.up]), hruns⟩, hf.calm⟩

theorem handleLeave_routed (hs : Calm u s) (x : String) (leave : LeaveRoom) (pick : Nat) :
    Routed u g (Call.handleLeave x leave) s (s.handleLeave u g x leave pick).2
      (s.handleLeave u g x leave pick).1 := by
  refine .find hs x ?_
  cases hfind : s.findRoomForClient x with
  | none =>
    simp only [handleLeave, hfind]
    exact .ret hs _
  | some r => exact leaveRoom_alone hs x leave pick hfind

theorem handlePresence_routed (hs : Calm u s) (x : String) (presence : PresenceUpdate) :
    Routed u g (Call.handlePresence x presence) s (s.handlePresence u g x presence).2
      (s.handlePresence u g x presence).1 := by
  refine .find hs x ?_
  unfold handlePresence
  cases hfind : s.findRoomForClient x with
  | none => exact .ret hs _
  | some r =>
    refine .step hs rfl rfl fun hs => ?_
    exact .bind (toOthers_alone hs r x _) fun hs => .ret hs _

theorem handleBroadcast_routed (hs : Calm u s) (x : String) (action : Action) :
    Routed u g (Call.handleBroadcast x action) s (s.handleBroadcast u g x action).2
      (s.handleBroadcast u g x action).1 := by
  refine .find hs x ?_
  cases hfind : s.findRoomForClient x with
  | none =>
    simp only [handleBroadcast, hfind]
    exact .ret hs _
  | some r => exact relayIn_alone hs x action hfind

theorem route_routed (hs : Calm u s) (ctx : Ctx) (a : CollabAction) (pick : Nat) :
    Routed u g (Call.route ctx a) s (s.handleAction u g ctx a pick).2
      (s.handleAction u g ctx a pick).1 := by
  obtain ⟨actionId, x, action⟩ := a
  cases action with
  | none => exact (Alone.ret hs _).routed
  | some action =>
    cases action with
    | join join => exact (handleJoin_alone hs ctx join).routed
    | leave leave => exact handleLeave_routed hs x leave pick
    | presence presence => exact handlePresence_routed hs x presence
    | _ =>
      simp only [Call.route, handleAction]
      exact handleBroadcast_routed hs x _

/-- `HandleAction` run alone is the handler. -/
theorem handleAction_runs (hs : Calm u s) (ctx : Ctx) (a : CollabAction) (pick : Nat) :
    Alone u g (Call.handleAction ctx a) s (s.handleAction u g ctx a pick).2
      (s.handleAction u g ctx a pick).1 := by
  obtain ⟨⟨act, hruns⟩, hcalm⟩ := route_routed hs ctx a pick
  refine ⟨hruns.bind ⟨0, _, (), if_neg (by simp [noteActing, hcalm.up]), rfl, ?_⟩, hcalm⟩
  rw [noteActing_noteActing]
  exact hcalm.noteActing

/-- `DeliverAppMessage` run alone is the handler. -/
theorem deliverAppMessage_runs (hs : Calm u s) (sid x : String) (msg : AppMessage) :
    Alone u g (Call.deliverAppMessage sid x msg) s (s.deliverAppMessage u g sid x msg).2
      (s.deliverAppMessage u g sid x msg).1 := by
  unfold deliverAppMessage
  refine .step hs rfl rfl fun hs => ?_
  cases s.getRoomByID sid with
  | none => exact .ret hs _
  | some r =>
    refine .step hs rfl rfl fun hs => ?_
    by_cases hall : msg.toClientIds = []
    · simp only [if_pos hall]
      refine .bind (toOthers_alone hs r x _) fun hs => ?_
      exact .step hs rfl rfl fun hs => .ret hs _
    · simp only [if_neg hall]
      refine .bind (addressed_alone hs r _ x msg) fun hs => ?_
      exact .step hs rfl rfl fun hs => .ret hs _

/-! ### Serial runs -/

/-- What a request does to the service when nothing comes between its steps. -/
def Request.Runs (u : UuidSource) (s s' : CollabService) : Request → Prop
  | .handle g ctx a _ => ∃ answer, (Call.handleAction ctx a).Runs (ServiceOp.exec u g) s answer s'
  | .deliverAppMessage g sid x msg =>
    ∃ answer, (Call.deliverAppMessage sid x msg).Runs (ServiceOp.exec u g) s answer s'
  | .receive c => s' = s.receive c

theorem Calm.new (maxPeers : Int) : Calm u (newCollabService maxPeers) where
  toHoused := .new maxPeers
  up := rfl
  free _ := rfl
  idle _ := rfl

theorem Calm.receive (hs : Calm u s) (c : String) : Calm u (s.receive c) := by
  unfold CollabService.receive
  split
  · exact hs
  · rename_i q s' htake
    refine { hs.toHoused.take? htake with up := ?_, free := ?_, idle := ?_ }
    · rw [take?_panicked htake]
      exact hs.up
    · rw [take?_roomAt htake]
      exact hs.free
    · obtain ⟨ch, -, rfl⟩ := take?_eq_some htake
      exact hs.idle

theorem Calm.serve (hs : Calm u s) (req : Request) :
    req.Runs u s (s.serve u req) ∧ Calm u (s.serve u req) := by
  cases req with
  | handle g ctx a pick =>
    have hruns := handleAction_runs (g := g) hs ctx a pick
    exact ⟨⟨_, hruns.runs⟩, hruns.calm⟩
  | deliverAppMessage g sid x msg =>
    have hruns := deliverAppMessage_runs (g := g) hs sid x msg
    exact ⟨⟨_, hruns.runs⟩, hruns.calm⟩
  | receive c => exact ⟨rfl, hs.receive c⟩

theorem Calm.serveAll (maxPeers : Int) (reqs : List Request) :
    Calm u (serveAll u (newCollabService maxPeers) reqs) := by
  unfold MassRelay.serveAll
  exact List.foldlRecOn reqs _ (.new maxPeers) fun s hs req _ => (hs.serve req).2

/-- Every request of a serial run is its program, run without interruption. -/
theorem serveAll_runs (maxPeers : Int) (reqs : List Request) (req : Request) :
    req.Runs u (serveAll u (newCollabService maxPeers) reqs)
      (serveAll u (newCollabService maxPeers) (reqs ++ [req])) := by
  have hserve := ((Calm.serveAll (u := u) maxPeers reqs).serve req).1
  rwa [serveAll, serveAll, List.foldl_append]

end CollabService

end MassRelay

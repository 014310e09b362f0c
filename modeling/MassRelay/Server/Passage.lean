import MassRelay.Server.Channels
import MassRelay.Server.Delivery

/-!
# MassRelay.Server.Passage

From the `Send` of one stream to the `Recv` of another.

What clients tell each other passes through the relay unread. A call of `HandleAction` passes
on at most its own action, to each client at most once, and a stream handles one action after
the other (`passage`). So of what was given to `Send` on a stream, a client hears some part, in
that order, and nothing twice, and each action as it was given, but for the receivers of an
addressed message (`send_to_recv`).
-/

namespace MassRelay

open Threads CollabService

variable {α : Type}

/-- The event as which client `c` hears of an action that is passed on to it. -/
def Action.passedTo (c : String) : Action → Option Event
  | .presence p => some (.presence p)
  | .appMessage msg =>
    some (.appMessage (if msg.toClientIds = [] then msg else { msg with toClientIds := [c] }))
  | action => relayed action

/-- An event that tells of an action, and not one of the relay's own. -/
def Event.isPassedOn : Event → Bool
  | .roomJoined _ | .peerJoined _ | .peerLeft _ | .error _ | .sessionEnded _ | .ownerChanged _ =>
    false
  | _ => true

/-- The action of a `Send` and the clients that it was passed on to. -/
structure Posting where
  hand : Option Action := none
  told : List String := []

/-- How a stream passes on an action: as it is, and to nobody twice. -/
def passage : Discipline ServiceOp ServiceOp.Res Posting where
  may
    | q, .beginDeliver c e =>
      e.event.isPassedOn = true → c ∉ q.told ∧ (q.hand.bind (·.passedTo c)) = some e.event
    | _, _ => True
  answer
    | .rlock _ _, r => r.1.Nodup
    | .peerJoinedEvent _ _, e | .ownerChangedEvent _ _ _, e => e.event.isPassedOn = false
    | _, _ => True
  next
    | q, .beginDeliver c e, _ => if e.event.isPassedOn then { q with told := c :: q.told } else q
    | q, _, _ => q

/-! ### The calls of the service -/

/-- A step that passes nothing on. -/
def passesNothing : ServiceOp → Bool
  | .beginDeliver _ e => !e.event.isPassedOn
  | _ => true

namespace Call

variable {q : Posting} {r : RoomRef} {range : Range} {build : String → CollabEvent}

theorem passage_may {o : ServiceOp} (h : passesNothing o = true) : passage.may q o := by
  cases o with
  | beginDeliver c e =>
    intro he
    simp [passesNothing, he] at h
  | _ => trivial

theorem passage_next {o : ServiceOp} (h : passesNothing o = true) (a : o.Res) :
    passage.next q o a = q := by
  cases o with
  | beginDeliver c e =>
    have he : e.event.isPassedOn = false := by simpa [passesNothing] using h
    simp [passage, he]
  | _ => rfl

theorem perform_mute {o : ServiceOp} (h : passesNothing o = true) :
    (perform o).Stays passage q :=
  .perform (passage_may h) (passage_next h)

theorem error_mute (code message : String) : (error code message).Stays passage q :=
  .bind (perform_mute rfl) fun _ => .ret _

/-- After the slow flag is tested, a `deliver` call makes no further one. -/
theorem deliver_passes {c : String} {e : CollabEvent}
    (hmay : passage.may q (.beginDeliver c e)) :
    (deliver c e).Follows passage
      (fun _ q' => q' = if e.event.isPassedOn then { q with told := c :: q.told } else q) q := by
  refine .op hmay fun call _ => ?_
  cases call with
  | none => rfl
  | some call =>
    refine Prog.Stays.then (perform_mute rfl) fun queued => ?_
    split
    · rfl
    · exact Prog.Stays.then (f := fun _ => .ret ()) (perform_mute rfl) fun _ => rfl

/-- A broadcast of the relay's own events. -/
theorem broadcast_mute (h : ∀ c, (build c).event.isPassedOn = false) :
    (broadcast r range build).Stays passage q := by
  have heach : ∀ cs : List String,
      (deliverEach (cs.map fun c => (c, build c))).Stays passage q := by
    intro cs
    induction cs with
    | nil => exact .ret _
    | cons c cs ih =>
      refine .bind (.mono ?_ (deliver_passes fun he => by simp [h c] at he)) fun _ => ih
      rintro _ q' rfl
      simp [h c]
  exact .bind (perform_mute rfl) fun _ => .bind (heach _) fun _ =>
    .bind (perform_mute rfl) fun _ => .ret _

/-- A broadcast of the action in hand, before which it was passed on to nobody. -/
theorem broadcast_passes {action : Action}
    (h : ∀ c, (build c).event.isPassedOn = true → action.passedTo c = some (build c).event) :
    (broadcast r range build).Follows passage (fun _ _ => True) ⟨some action, []⟩ := by
  have heach : ∀ (cs told : List String), cs.Nodup → (∀ c ∈ cs, c ∉ told) →
      (deliverEach (cs.map fun c => (c, build c))).Follows passage (fun _ _ => True)
        ⟨some action, told⟩ := by
    intro cs
    induction cs with
    | nil => exact fun _ _ _ => trivial
    | cons c cs ih =>
      intro told hcs htold
      obtain ⟨hc, hcs⟩ := List.nodup_cons.mp hcs
      refine .bind (.mono ?_ (deliver_passes fun he => ⟨htold c List.mem_cons_self, h c he⟩))
      rintro _ q rfl
      split
      · refine ih (c :: told) hcs fun c' hc' => ?_
        rintro (_ | ⟨_, hmem⟩)
        · exact hc hc'
        · exact htold c' (List.mem_cons_of_mem _ hc') hmem
      · exact ih told hcs fun c' hc' => htold c' (List.mem_cons_of_mem _ hc')
  refine .op trivial fun ranged hnodup => .bind ((heach _ [] hnodup fun _ _ => nofun).mono ?_)
  exact fun _ _ _ => Prog.Stays.then (perform_mute rfl) fun _ => trivial

theorem handleJoin_mute (ctx : Ctx) (join : JoinRoom) : (handleJoin ctx join).Stays passage q := by
  have haccept : ∀ sid r encrypted, (accept ctx join sid r encrypted).Stays passage q := by
    intro sid r encrypted
    refine .bind (perform_mute rfl) fun _ => .bind (perform_mute rfl) fun _ =>
      .bind (perform_mute rfl) fun _ => .bind (perform_mute rfl) fun _ => ?_
    exact .op trivial (fun _ => rfl) fun e he => .bind (broadcast_mute fun _ => he) fun _ =>
      .bind (perform_mute rfl) fun _ => .bind (perform_mute rfl) fun _ => .ret _
  have hcheck : ∀ sid r, (checkEncryption ctx join sid r).Stays passage q := by
    intro sid r
    refine .bind (.onlyIf (perform_mute rfl)) fun _ => .bind (perform_mute rfl) fun encrypted => ?_
    split
    · exact error_mute _ _
    · exact haccept sid r encrypted
  have henter : ∀ sid r, (enterRoom ctx join sid r).Stays passage q := by
    intro sid r
    refine .bind (perform_mute rfl) fun full => ?_
    split
    · exact .bind (perform_mute rfl) fun _ => error_mute _ _
    · split
      · refine .bind (perform_mute rfl) fun elsewhere => ?_
        split
        · exact .ret _
        · exact hcheck sid r
      · exact hcheck sid r
  have hresolve : (resolveSession join).Stays passage q := by
    unfold resolveSession
    split
    · exact .ret _
    · split
      · refine .bind (perform_mute rfl) fun existing => ?_
        split
        · exact .ret _
        · exact perform_mute rfl
      · exact perform_mute rfl
  have hlacks : ∀ sid, (lacksRoom join sid).Stays passage q := by
    intro sid
    unfold lacksRoom
    split
    · exact .bind (perform_mute rfl) fun _ => .ret _
    · exact .ret _
  unfold handleJoin
  split
  · exact error_mute _ _
  · refine .bind hresolve fun sid => .bind (.onlyIf (perform_mute rfl)) fun _ =>
      .bind (hlacks sid) fun lost => ?_
    split
    · exact error_mute _ _
    · exact .bind (perform_mute rfl) fun r => henter sid r

theorem handleLeave_mute (c : String) (leave : LeaveRoom) :
    (handleLeave c leave).Stays passage q := by
  have hleft : ∀ r count, (announceLeft c leave.reason r count).Stays passage q := fun r count =>
    .bind (perform_mute rfl) fun _ => .bind (broadcast_mute fun _ => rfl) fun _ =>
      .bind (.onlyIf (perform_mute rfl)) fun _ => .bind (perform_mute rfl) fun _ => .ret _
  have hend : ∀ r, (endRoom c r).Stays passage q := fun r =>
    .bind (perform_mute rfl) fun _ => .bind (broadcast_mute fun _ => rfl) fun _ =>
      .bind (perform_mute rfl) fun _ => .bind (perform_mute rfl) fun _ =>
      .bind (perform_mute rfl) fun _ => .ret _
  have hfind : ∀ r browserId, (findSuccessor r browserId c).Stays passage q := by
    intro r browserId
    unfold findSuccessor
    split
    · exact perform_mute rfl
    · exact .ret _
  refine .bind (perform_mute rfl) fun room => ?_
  cases room with
  | none => exact .ret _
  | some r =>
    refine .bind (perform_mute rfl) fun flags => .bind (perform_mute rfl) fun _ =>
      .bind (perform_mute rfl) fun count => ?_
    split
    · refine .bind (hfind r _) fun successor => ?_
      cases successor with
      | none => exact hend r
      | some successor =>
        refine .bind (perform_mute rfl) fun _ => .bind (perform_mute rfl) fun _ => ?_
        exact .op trivial (fun _ => rfl) fun e he =>
          .bind (broadcast_mute fun _ => he) fun _ => hleft r count
    · exact hleft r count

/-- A presence update is passed on as it is. -/
theorem handlePresence_passes (c : String) (presence : PresenceUpdate) :
    (handlePresence c presence).Follows passage (fun _ _ => True)
      ⟨some (.presence presence), []⟩ := by
  refine Prog.Stays.then (perform_mute rfl) fun room => ?_
  cases room with
  | none => trivial
  | some r =>
    exact Prog.Stays.then (perform_mute rfl) fun _ =>
      .bind ((broadcast_passes fun _ _ => rfl).mono fun _ _ _ => trivial)

theorem noteRelayed_mute (r : RoomRef) (action : Action) :
    (noteRelayed r action).Stays passage q := by
  unfold noteRelayed
  split
  · split
    · exact perform_mute rfl
    · exact .ret _
  · exact perform_mute rfl
  · exact .ret _

theorem addressed?_eq_some {action : Action} {msg : AppMessage} (h : addressed? action = some msg) :
    action = .appMessage msg ∧ msg.toClientIds ≠ [] := by
  cases action with
  | appMessage m =>
    obtain ⟨hids, hm⟩ := Option.ite_none_left_eq_some.mp h
    obtain rfl := Option.some.inj hm
    exact ⟨rfl, hids⟩
  | _ => simp [addressed?] at h

/-- So is what is broadcast, and an addressed message to each receiver by itself. -/
theorem handleBroadcast_passes (c : String) (action : Action) :
    (handleBroadcast c action).Follows passage (fun _ _ => True) ⟨some action, []⟩ := by
  refine Prog.Stays.then (perform_mute rfl) fun room => ?_
  cases room with
  | none => trivial
  | some r =>
    refine Prog.Stays.then (perform_mute rfl) fun eventId => ?_
    split
    · trivial
    · rename_i event hevent
      refine Prog.Stays.then (noteRelayed_mute r action) fun _ => ?_
      unfold relay
      split
      · rename_i haddressed
        refine .bind ((broadcast_passes fun c' _ => ?_).mono fun _ _ _ =>
          Prog.Stays.then (perform_mute rfl) fun _ => trivial)
        cases action <;> simp_all [Action.passedTo, relayed, addressed?]
      · rename_i msg haddressed
        refine .bind ((broadcast_passes fun c' _ => ?_).mono fun _ _ _ =>
          Prog.Stays.then (perform_mute rfl) fun _ => ?_)
        · obtain ⟨rfl, hids⟩ := addressed?_eq_some haddressed
          simp [Action.passedTo, addressedEvent, hids]
        · split
          · trivial
          · exact (error_mute _ _).mono fun _ _ _ => trivial

/-- A call of `HandleAction` passes on its own action. -/
theorem handleAction_passes (ctx : Ctx) (a : CollabAction) :
    (handleAction ctx a).Follows passage (fun _ _ => True) ⟨a.action, []⟩ := by
  have hroute : (route ctx a).Follows passage (fun _ _ => True) ⟨a.action, []⟩ := by
    unfold route
    split
    · exact (handleJoin_mute ctx _).mono fun _ _ _ => trivial
    · exact (handleLeave_mute a.clientId _).mono fun _ _ _ => trivial
    · rename_i presence haction
      rw [haction]
      exact handlePresence_passes a.clientId presence
    · rename_i action _ _ _ haction
      rw [haction]
      exact handleBroadcast_passes a.clientId action
    · trivial
  exact .bind (hroute.mono fun _ _ _ => Prog.Stays.then (perform_mute rfl) fun _ => trivial)

theorem getClient_mute (sid c : String) : (getClient sid c).Stays passage q := by
  refine .bind (perform_mute rfl) fun room => ?_
  cases room with
  | none => exact .ret _
  | some r => exact perform_mute rfl

end Call

/-! ### The methods of a stream -/

section Methods

variable {cfg : StreamConfig} {q : Posting} {i : Nat}

theorem Stream.step_then {o : StreamOp} {f : o.Res → Proc α} {post : α → Posting → Prop}
    (hf : ∀ a, (f a).Follows (Relay.follow passage) post q) :
    (Stream.perform i o >>= f).Follows (Relay.follow passage) post q :=
  Prog.Stays.then StreamOp.perform_stays hf

theorem Stream.sendAction_passes (a : CollabAction) :
    (Stream.sendAction cfg i a).Follows (Relay.follow passage) (fun _ _ => True)
      ⟨a.action, []⟩ := by
  refine .bind (.mono ?_ (Prog.Follows.embed (D := passage) (fun h => h) (fun h => h) rfl
    (Call.handleAction_passes cfg.principal a)))
  intro answer q _
  have hreply : ∀ e, (Stream.reply i e).Follows (Relay.follow passage) (fun _ _ => True) q :=
    fun e => Stream.step_then fun _ => trivial
  unfold Stream.sendAnswer
  split
  · trivial
  · trivial
  · refine Prog.Stays.then ?_ fun _ => hreply _
    unfold Stream.noteJoined
    split
    · exact .onlyIf (.bind StreamOp.perform_stays fun _ =>
        .bind (Call.proc_stays (Call.getClient_mute _ _)) fun _ => .onlyIf StreamOp.perform_stays)
    · exact .ret _

/-- A `Send` passes on the action that it was given. -/
theorem Stream.send_passes (a : CollabAction) :
    (Stream.send cfg i a).Follows (Relay.follow passage) (fun _ _ => True) ⟨a.action, []⟩ := by
  have hrefuse : ∀ code message, (Stream.refuse i code message).Follows (Relay.follow passage)
      (fun _ _ => True) ⟨a.action, []⟩ := fun code message =>
    Prog.Stays.then (Call.proc_stays (Call.perform_mute rfl)) fun _ =>
      Stream.step_then fun _ => trivial
  have hchecked : (Stream.sendChecked cfg i a).Follows (Relay.follow passage) (fun _ _ => True)
      ⟨a.action, []⟩ := by
    refine Stream.step_then fun joinedAs => ?_
    split
    · split
      · exact hrefuse _ _
      · exact Stream.sendAction_passes a
    · split
      · trivial
      -- the sender is the client of the stream, whoever the action names
      · exact Stream.sendAction_passes { a with clientId := joinedAs }
  unfold Stream.send
  split
  · exact hchecked
  · split
    · exact hchecked
    · refine Stream.step_then fun allowed => ?_
      split
      · exact hchecked
      · exact hrefuse _ _

end Methods

/-! ### What was sent and what was passed on -/

variable {u : UuidSource} {cfg : Nat → StreamConfig} {maxPeers : Int} {moves : List Move}
variable {t t' : System} {j : Nat} {c : String}

/-- The actions that a run gives to `Send` on stream `j`, in order. -/
def given (j : Nat) (moves : List Move) : List (Option Action) :=
  moves.filterMap fun
    | .launch (.send i a) => if i = j then some a.action else none
    | _ => none

/-- As what client `c` hears of a list of actions. -/
def passedTo (c : String) (actions : List (Option Action)) : List Event :=
  actions.filterMap fun action => action.bind (·.passedTo c)

/-- What the `deliver` calls of stream `j` passed on to client `c`. -/
def CollabService.passedOn (s : CollabService) (j : Nat) (c : String) : List Event :=
  ((s.sentTo (.send j) c).map (·.event)).filter Event.isPassedOn

/-- The streams pass on what they are given, and the other goroutines do what they like. -/
def conduct : Goroutine → Discipline Op Op.Res Posting
  | .send _ => Relay.follow passage
  | _ => ⟨fun _ _ => True, fun _ _ => True, fun q _ _ => q⟩

/-- What the streams have passed on, compared with what they were given: the last action of a
stream to those clients alone that it was passed on to. -/
structure Passing (t : System) (q : Goroutine → Posting) (moves : List Move) : Prop where
  hand : ∀ j, (q (.send j)).hand = (given j moves).getLast?.join
  passed : ∀ j c, (t.shared.svc.passedOn j c).Sublist
    (passedTo c (if c ∈ (q (.send j)).told then given j moves else (given j moves).dropLast))

theorem given_send (i j : Nat) (a : CollabAction) :
    given j [.launch (.send i a)] = if i = j then [a.action] else [] := by
  by_cases h : i = j <;> simp [given, h]

theorem given_concat (m : Move) : given j (moves ++ [m]) = given j moves ++ given j [m] :=
  List.filterMap_append

theorem passedTo_append (l l' : List (Option Action)) :
    passedTo c (l ++ l') = passedTo c l ++ passedTo c l' :=
  List.filterMap_append

/-- A state in which the streams have done nothing more. -/
theorem Passing.same {q q' : Goroutine → Posting} {m : Move} (h : Passing t q moves)
    (hsent : ∀ j c, t'.shared.svc.passedOn j c = t.shared.svc.passedOn j c)
    (hq : ∀ j, q' (.send j) = q (.send j)) (hm : ∀ j, given j [m] = []) :
    Passing t' q' (moves ++ [m]) := by
  have hgiven : ∀ j, given j (moves ++ [m]) = given j moves := by
    intro j
    rw [given_concat, hm, List.append_nil]
  refine ⟨fun j => ?_, fun j c => ?_⟩
  · rw [hq, hgiven]
    exact h.hand j
  · rw [hsent, hq, hgiven]
    exact h.passed j c

theorem sentTo_of_append {s s' : CollabService} {g : Goroutine} {l : List Delivery}
    (h : s'.sent = s.sent ++ l) (c : String) :
    s'.sentTo g c = s.sentTo g c ++ ((sentBy g l).filter (·.client = c)).map (·.event) := by
  simp [sentTo, sentBy, h]

theorem passedOn_append {s s' : CollabService} {l : List Delivery}
    (h : s'.sent = s.sent ++ l) (j : Nat) (c : String) :
    s'.passedOn j c = s.passedOn j c ++
      (((sentBy (.send j) l).filter (·.client = c)).map (·.event.event)).filter
        Event.isPassedOn := by
  simp [passedOn, sentTo_of_append h, Function.comp_def]

/-- All that was passed on is some part of all that was given. -/
theorem Passing.sublist {q : Goroutine → Posting} (h : Passing t q moves) (j : Nat) (c : String) :
    (t.shared.svc.passedOn j c).Sublist (passedTo c (given j moves)) := by
  refine (h.passed j c).trans (List.Sublist.filterMap _ ?_)
  split
  · exact List.Sublist.refl _
  · exact List.dropLast_sublist _

/-- A `deliver` call of a stream begins. -/
theorem Passing.deliver {q : Goroutine → Posting} {n : Nat} {e : CollabEvent}
    (h : Passing t q moves) (hmay : passage.may (q (.send j)) (.beginDeliver c e))
    (hsent : t'.shared.svc.sent = t.shared.svc.sent ++ [⟨.send j, c, e⟩]) :
    Passing t' (Function.update q (.send j)
      (passage.next (q (.send j)) (.beginDeliver c e) none)) (moves ++ [.run (.send j) n]) := by
  have hgiven : ∀ j', given j' (moves ++ [.run (.send j) n]) = given j' moves := by
    intro j'
    rw [given_concat]
    exact List.append_nil _
  refine ⟨fun j' => ?_, fun j' c' => ?_⟩
  · rw [hgiven, ← h.hand]
    by_cases hj : j' = j
    · subst hj
      rw [Function.update_self]
      simp only [passage]
      split <;> rfl
    · rw [Function.update_of_ne (by simpa using hj)]
  · have hold := h.passed j' c'
    rw [hgiven, passedOn_append hsent]
    by_cases hj : j' = j
    · subst hj
      rw [Function.update_self]
      by_cases hc : c' = c
      · subst hc
        cases he : e.event.isPassedOn with
        | false => simpa [sentBy, passage, he] using hold
        | true =>
          -- the last action, which was not passed on to this client yet
          obtain ⟨htold, hevent⟩ := hmay he
          rw [if_neg htold] at hold
          obtain ⟨action, haction, hpassed⟩ := Option.bind_eq_some_iff.mp hevent
          rw [h.hand, Option.join_eq_some_iff] at haction
          obtain ⟨pre, hpre⟩ := List.getLast?_eq_some_iff.mp haction
          have hall : passedTo c' (given j' moves) =
              passedTo c' (given j' moves).dropLast ++ [e.event] := by
            rw [hpre, List.dropLast_concat, passedTo_append]
            simp [passedTo, hpassed]
          simpa [sentBy, passage, he, hall] using hold.append_right [e.event]
      · have hmem : c' ∈ (passage.next (q (.send j')) (.beginDeliver c e) none).told ↔
            c' ∈ (q (.send j')).told := by
          simp only [passage]
          split
          · simp [hc]
          · rfl
        simpa [sentBy, hc, Ne.symm hc, hmem] using hold
    · rw [Function.update_of_ne (by simpa using hj)]
      simpa [sentBy, Ne.symm hj] using hold

/-- `Send` on a stream is given an action. -/
theorem Passing.send {q : Goroutine → Posting} {a : CollabAction} (h : Passing t q moves)
    (hsent : ∀ j c, t'.shared.svc.passedOn j c = t.shared.svc.passedOn j c) :
    Passing t' (Function.update q (.send j) ⟨a.action, []⟩)
      (moves ++ [.launch (.send j a)]) := by
  refine ⟨fun j' => ?_, fun j' c => ?_⟩
  · by_cases hj : j' = j
    · subst hj
      rw [Function.update_self, given_concat]
      simp [given]
    · rw [Function.update_of_ne (by simpa using hj), given_concat]
      simpa [given, Ne.symm hj] using h.hand j'
  · rw [hsent, given_concat]
    by_cases hj : j' = j
    · subst hj
      rw [Function.update_self]
      simpa [given] using h.sublist j' c
    · rw [Function.update_of_ne (by simpa using hj)]
      simpa [given, Ne.symm hj] using h.passed j' c

theorem passedOn_of_sent {s s' : CollabService} (h : s'.sent = s.sent) (j : Nat) (c : String) :
    s'.passedOn j c = s.passedOn j c := by
  simp only [passedOn, sentTo, h]

/-! ### Every move keeps the record -/

/-- What the discipline knows of the answers is so. -/
theorem passage_answer {s s' : CollabService} {g : Goroutine} {n : Nat} {o : ServiceOp} {a : o.Res}
    (hs : Housed u s) (h : o.apply u g n s = some (s', a)) : passage.answer o a := by
  cases o with
  | rlock r range =>
    obtain ⟨-, rfl⟩ := Prod.mk.inj (Option.some.inj h)
    exact rangeTargets_nodup (hs.nodup r)
  | peerJoinedEvent id c | ownerChangedEvent id c c' =>
    obtain ⟨-, rfl⟩ := Prod.mk.inj (Option.some.inj h)
    rfl
  | _ => trivial

theorem conduct_answer {g : Goroutine} {n : Nat} {o : Op} {a : o.Res} {s s' : Relay}
    (hs : Housed u s.svc) (h : o.exec u g n s = some (s', a)) : (conduct g).answer o a := by
  unfold conduct
  split
  · cases o with
    | service o => exact passage_answer hs (Op.exec_service h).2.1
    | stream i o => trivial
  · trivial

/-- A step of a goroutine. -/
theorem Passing.run {q : Goroutine → Posting} {g : Goroutine} {n : Nat} {o : Op} {a : o.Res}
    {s : Relay} (h : Passing t q moves) (hmay : (conduct g).may (q g) o)
    (hx : o.exec u g n t.shared = some (s, a)) (ht : t'.shared = s) :
    Passing t' (Function.update q g ((conduct g).next (q g) o a)) (moves ++ [.run g n]) := by
  subst ht
  have hstays : (conduct g).next (q g) o a = q g →
      (∀ j c, t'.shared.svc.passedOn j c = t.shared.svc.passedOn j c) →
      Passing t' (Function.update q g ((conduct g).next (q g) o a)) (moves ++ [.run g n]) := by
    intro hnext hsent
    rw [hnext, Function.update_eq_self]
    exact h.same hsent (fun _ => rfl) fun _ => rfl
  cases o with
  | stream i o =>
    refine hstays ?_ (passedOn_of_sent (by rw [StreamOp.apply_svc (Op.exec_stream hx).2]))
    unfold conduct
    split <;> rfl
  | service o =>
    have hsent := apply_sent (Op.exec_service hx).2.1
    by_cases hg : ∃ j, g = .send j
    · obtain ⟨j, rfl⟩ := hg
      cases o with
      | beginDeliver c e => exact h.deliver hmay hsent
      | _ => exact hstays rfl (passedOn_of_sent (hsent.trans (List.append_nil _)))
    · refine hstays ?_ fun j c => ?_
      · unfold conduct
        split
        · exact absurd ⟨_, rfl⟩ hg
        · rfl
      · have hne : g ≠ .send j := fun hgj => hg ⟨j, hgj⟩
        rw [passedOn_append hsent]
        cases o <;> simp [sends, sentBy, hne]

theorem Launch.passedOn {m : Launch} {s s' : Relay} {start : Option (Goroutine × Proc Unit)}
    (hl : m.launch cfg s = some (s', start)) (j : Nat) (c : String) :
    s'.svc.passedOn j c = s.svc.passedOn j c := by
  refine passedOn_of_sent ?_ j c
  rcases Launch.apply_svc (Launch.launch_eq_some hl).2 with heq | ⟨c, q, htake⟩
  · rw [heq]
  · exact take?_sent htake

/-- A goroutine that is no `Send` may do anything. -/
theorem conduct_follows {g : Goroutine} {p : Proc Unit} {q : Posting} (hg : ∀ j, g ≠ .send j) :
    p.Follows (conduct g) (fun _ _ => True) q := by
  have hconduct : conduct g = ⟨fun _ _ => True, fun _ _ => True, fun q _ _ => q⟩ := by
    unfold conduct
    split
    · exact absurd rfl (hg _)
    · rfl
  rw [hconduct]
  exact (Prog.Stays.of_forall (fun _ => ⟨trivial, fun _ => rfl⟩) p).mono fun _ _ _ => trivial

/-- In every run the streams pass on what they are given. -/
theorem passing_run (h : System.run u cfg (System.init maxPeers) moves = some t) :
    ∃ q, Disciplined conduct (fun _ _ => True) t q ∧ Passing t q moves := by
  refine Machine.exec_induction (P := fun t moves => ∃ q,
    Disciplined conduct (fun _ _ => True) t q ∧ Passing t q moves) ?_ ?_ h
  · refine ⟨fun _ => {}, .init fun _ => trivial, fun _ => rfl, fun _ _ => ?_⟩
    exact List.Sublist.refl _
  · rintro t m t' moves hrun ⟨q, hq, hpassing⟩ hmove
    rcases hq.step hmove with ⟨g, n, o, k, s, a, rfl, hg, hx, hmay, rfl, hnext⟩ |
      ⟨m, s, rfl, hl, rfl, hrest⟩ | ⟨m, s, g, p, rfl, hl, hg, -, rfl, hstart⟩
    · exact ⟨_, hnext (conduct_answer (channels_run hrun).2.1 hx), hpassing.run hmay hx rfl⟩
    · refine ⟨q, hrest, hpassing.same (Launch.passedOn hl) (fun _ => rfl) fun j => ?_⟩
      cases m with
      | send i a => simp [Launch.launch, Launch.apply] at hl
      | _ => rfl
    · have hstarted := Launch.apply_started (Launch.launch_eq_some hl).2
      have hother : (∀ j, g ≠ .send j) → (∀ j, given j [.launch m] = []) →
          ∃ q, Disciplined conduct (fun _ _ => True)
            ⟨s, Function.update t.threads g (left p)⟩ q ∧
            Passing ⟨s, Function.update t.threads g (left p)⟩ q (moves ++ [.launch m]) := by
        intro hg hgiven
        refine ⟨_, hstart (q g) (conduct_follows hg), ?_⟩
        rw [Function.update_eq_self]
        exact hpassing.same (Launch.passedOn hl) (fun _ => rfl) hgiven
      cases hstarted with
      | send i a =>
        refine ⟨_, hstart ⟨a.action, []⟩ ?_, hpassing.send (Launch.passedOn hl)⟩
        exact .bind ((Stream.send_passes a).mono fun _ _ _ => trivial)
      | watchClose _ | expire _ | closeSend _ _ | evict _ _ _ | direct _ _ =>
        exact hother (by simp) fun _ => rfl

/-! ### From `Send` to `Recv` -/

/-- What the read loop of stream `j` passed on to client `c`, as `Recv` has returned it. -/
def heardFrom (j : Nat) (c : String) (items : List Item) : List Event :=
  (((queuedBy (.send j) (roomItems c items)).map (·.event)).map (·.event)).filter Event.isPassedOn

/-- What `Recv` has returned for a client is the first part of what came into its queue. -/
theorem returned_isPrefix (h : System.run u cfg (System.init maxPeers) moves = some t) (i : Nat)
    (c : String) :
    roomItems c (t.shared.streams i).returned <+: (t.shared.svc.clientAt c).enqueued := by
  have hforwards := forwards_run h
  have hreturned : (t.shared.streams i).returned <+: (t.shared.streams i).queued :=
    hforwards.received i ▸ List.prefix_append _ _
  have htaken : (t.shared.svc.clientAt c).taken <+: (t.shared.svc.clientAt c).enqueued := by
    rw [(deliveries_holds h).inv.1.queue c]
    exact List.prefix_append _ _
  exact (hreturned.filterMap _).trans ((hforwards.ordered i c).trans htaken)

theorem heard_sublist (h : System.run u cfg (System.init maxPeers) moves = some t) (i j : Nat)
    (c : String) :
    (heardFrom j c (t.shared.streams i).returned).Sublist (passedTo c (given j moves)) := by
  obtain ⟨q, -, hpassing⟩ := passing_run h
  have hsent : (queuedBy (.send j) (roomItems c (t.shared.streams i).returned)).map (·.event) <+:
      t.shared.svc.sentTo (.send j) c := by
    have hqueued := (deliveries_holds h).inv.2.queued_isPrefix (.send j) c
    have hevents := events_prefix (.send j) (returned_isPrefix h i c)
    exact hevents.trans hqueued
  exact ((hsent.map _).filter _).sublist.trans (hpassing.sublist j c)

/-- However the streams and the calls overlap, what a client hears through one stream of what
the clients tell each other is, for every other stream, some part of what was given to `Send`
there, in that order: each action as it was given (an addressed message names the one receiver),
and no action twice. -/
theorem send_to_recv (h : System.run u cfg (System.init maxPeers) moves = some t) (i j : Nat)
    (c : String) :
    (heardFrom j c (t.shared.streams i).returned).Sublist (passedTo c (given j moves)) :=
  heard_sublist h i j c

/-- Two streams join `s1`. The second sends a scene update, which the first hears after
its `RoomJoined` and the `PeerJoined` of the second. -/
def joinAndTell : List Move :=
  List.flatten [
    .launch (.send 0 { action := some (.join { sessionId := "s1" }) }) ::
      List.replicate 19 (.run (.send 0) 0),
    .launch (.send 1 { action := some (.join { sessionId := "s1" }) }) ::
      List.replicate 21 (.run (.send 1) 0),
    .launch (.send 1 { action := some (.sceneUpdate ⟨[]⟩) }) ::
      List.replicate 9 (.run (.send 1) 0),
    List.replicate 4 (.launch (.bridge 0 "u" .chan)),
    List.replicate 3 (.launch (.recv 0))]

theorem send_to_recv_joinAndTell : ∃ t,
    System.run .unary (fun _ => {}) (System.init 10) joinAndTell = some t ∧
    heardFrom 1 "u" (t.shared.streams 0).returned = [.sceneUpdate ⟨[]⟩] ∧
    (heardFrom 1 "u" (t.shared.streams 0).returned).Sublist
      (passedTo "u" (given 1 joinAndTell)) := by
  have hrun : (System.run .unary (fun _ => {}) (System.init 10) joinAndTell).any (fun t =>
      heardFrom 1 "u" (t.shared.streams 0).returned = [.sceneUpdate ⟨[]⟩]) = true := by
    decide +kernel
  obtain ⟨t, ht, hheard⟩ := (Option.any_eq_true _ _).mp hrun
  exact ⟨t, ht, of_decide_eq_true hheard, send_to_recv ht 0 1 "u"⟩

end MassRelay

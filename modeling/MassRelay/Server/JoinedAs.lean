import MassRelay.Lib.Machine
import MassRelay.Server.Membership
import MassRelay.Services.Alone
import MassRelay.Services.Gauges
import MassRelay.Services.Welcome

/-!
# MassRelay.Server.JoinedAs

What a stream remembers of its membership, against what the service knows.

`Send` refuses a `JoinRoom` when the stream's `clientId` is set, which a join does and only
`leaveAndCleanup` undoes. The service takes the client out of its room on other occasions
(`Removes`): when a `LeaveRoom` comes through `Send` itself, and when the session ends with
its owner. Then the stream goes on refusing joins as `ALREADY_JOINED`, for a client that is in
no room.

Here the calls do not overlap. `Serial.send` is `Send` as a function, and `step_runs` connects
it to the program of `MassRelay.Server.Stream`. A request leaves a client where it is exactly
when it does not remove it (`serve_houses_iff`), from which `tracks_throughout_iff` says in
which runs what the stream remembers is right.
-/

namespace MassRelay

namespace CollabService

variable {u : UuidSource} {s s' : CollabService} {g : Goroutine} {r : RoomRef} {c x : String}

/-! ### Taking a client out of its room -/

/-- The request takes client `c` out of the room it is in: a leave in its name, or one that
ends its session. -/
def Removes (s : CollabService) (c : String) : Request → Prop
  | .handle g ctx { actionId, clientId := x, action := some (.leave leave) } pick =>
    (s.findRoomForClient c).isSome = true ∧ s.findRoomForClient x = s.findRoomForClient c ∧
      (x = c ∨ EndsForOthers s (.handle g ctx ⟨actionId, x, some (.leave leave)⟩ pick))
  | _ => False

instance (s : CollabService) (req : Request) : Decidable (EndsForOthers s req) := by
  unfold EndsForOthers
  split
  · exact inferInstanceAs (Decidable (∃ r ∈ s.findRoomForClient _, _))
  · infer_instance

instance (s : CollabService) (c : String) (req : Request) : Decidable (Removes s c req) := by
  unfold Removes
  split <;> infer_instance

/-- A client that is in a room is found there. -/
theorem RoomsWF.findRoomForClient (hs : RoomsWF u s) (hc : c ∈ (s.roomAt r).clients) :
    s.findRoomForClient c = some r := by
  obtain ⟨r', hfind⟩ := findRoomForClient_isSome (hs.live hc) hc
  rw [hfind, hs.room_unique (findRoomForClient_eq_some hfind).2 hc]

/-- Who is left in the rooms after a leave. -/
theorem handleLeave_mem_iff (ctx : Ctx) (actionId : String) (leave : LeaveRoom) (pick : Nat)
    (hs : RoomsWF u s) (hfind : s.findRoomForClient x = some r) (hc : c ∈ (s.roomAt r).clients) :
    c ∈ ((s.handleLeave u g x leave pick).1.roomAt r).clients ↔
      ¬ (x = c ∨ EndsForOthers s (.handle g ctx ⟨actionId, x, some (.leave leave)⟩ pick)) := by
  have hleft : c ∈ ((s.removeLeft r x).roomAt r).clients ↔ x ≠ c := by
    rw [removeLeft_roomAt_self, (hs.nodup r).mem_erase_iff]
    exact ⟨fun h => h.1.symm, fun h => ⟨h.symm, hc⟩⟩
  cases handleLeave_cases (u := u) (g := g) leave pick hfind with
  | plain hplain heq =>
    rw [heq, announceLeft_roomAt, hleft, not_or]
    refine (and_iff_left fun hends => ?_).symm
    obtain ⟨hflag, hrest, -⟩ := (endsForOthers_iff hs pick hfind).mp hends
    rcases hplain with h | h
    · simp [hflag] at h
    · exact hrest h
  | ended pick' hflag hrest hsucc heq =>
    have hempty : (((s.removeLeft r x).endRoom u g x r).1.roomAt r).clients = [] :=
      congrArg RoomView.clients (endRoom_view (s.removeLeft r x)).1
    rw [heq, hempty]
    refine iff_of_false List.not_mem_nil (not_not.mpr (Or.inr ?_))
    exact (endsForOthers_iff hs pick' hfind).mpr ⟨hflag, hrest, hsucc⟩
  | moved pick' successor hflag hrest hsucc heq =>
    rw [heq, announceLeft_roomAt, broadcastToAll_roomAt]
    change c ∈ (((s.removeLeft r x).transferOwner r successor).roomAt r).clients ↔ _
    rw [(transferOwner_clients _ successor r).1, hleft, not_or]
    refine (and_iff_left fun hends => ?_).symm
    have hnone := ((endsForOthers_iff hs pick' hfind).mp hends).2.2
    exact absurd (hsucc.symm.trans hnone) (Option.some_ne_none successor)

/-- And in the rooms that it is not about. -/
theorem handleLeave_mem_of_ne {leave : LeaveRoom} {pick : Nat} (hs : RoomsWF u s)
    (hopen : ChansOpen s) {r' : RoomRef} (hfind : s.findRoomForClient x = some r')
    (hne : r ≠ r') (hc : c ∈ (s.roomAt r).clients) :
    c ∈ ((s.handleLeave u g x leave pick).1.roomAt r).clients := by
  obtain ⟨h, -, hdoes⟩ := handleLeave_happens (u := u) (g := g) leave pick hs hopen hfind
  have hview := hdoes.otherRooms r (hs.registered (hs.live hc)).2 hne
  have hclients : ((s.handleLeave u g x leave pick).1.roomAt r).clients = (s.roomAt r).clients :=
    congrArg RoomView.clients hview
  rwa [hclients]

/-- A request leaves a client in its room exactly when it does not remove it. -/
theorem mem_serve_iff (hs : RoomInv u s) (hopen : ChansOpen s) (hc : c ∈ (s.roomAt r).clients)
    (req : Request) : c ∈ ((s.serve u req).roomAt r).clients ↔ ¬ Removes s c req := by
  have hfindc := hs.wf.findRoomForClient hc
  by_cases hleave : ∃ g ctx actionId x leave pick,
      req = .handle g ctx ⟨actionId, x, some (.leave leave)⟩ pick
  · obtain ⟨g, ctx, actionId, x, leave, pick, rfl⟩ := hleave
    change c ∈ ((s.handleLeave u g x leave pick).1.roomAt r).clients ↔ ¬ (_ ∧ _ ∧ _)
    rw [hfindc]
    cases hfind : s.findRoomForClient x with
    | none =>
      simp only [handleLeave, hfind]
      exact iff_of_true hc fun h => absurd h.2.1 (Option.some_ne_none r).symm
    | some r' =>
      by_cases hr : r = r'
      · subst hr
        rw [handleLeave_mem_iff ctx actionId leave pick hs.wf hfind hc]
        simp only [Option.isSome_some, true_and]
      · exact iff_of_true (handleLeave_mem_of_ne hs.wf hopen hfind hr hc)
          fun h => hr (Option.some.inj h.2.1).symm
  · obtain ⟨h, hhappens, hdoes⟩ := serve_happens hs hopen (hs.wf.live hc) req
    have hview : ((s.serve u req).roomAt r).clients = (h.apply (s.view r)).clients :=
      congrArg RoomView.clients hdoes.view
    have hnot : ¬ Removes s c req := by
      unfold Removes
      split
      · exact absurd ⟨_, _, _, _, _, _, rfl⟩ hleave
      · exact id
    refine iff_of_true ?_ hnot
    rw [hview]
    cases hhappens with
    | messages req told => exact hc
    | relayed g ctx actionId x action pick event hfind hevent => cases action <;> exact hc
    | declared => exact hc
    | joined => exact List.mem_insert_of_mem hc
    | left | moved | ended => exact absurd ⟨_, _, _, _, _, _, rfl⟩ hleave

/-- Only what every step respects can happen in a call. -/
theorem Runs.grow {α : Type} {p : Call α} {a : α}
    (h : p.Runs (ServiceOp.exec u g) s a s') : Grow u s s' := by
  refine Prog.Runs.invariant ?_ h (.refl u s)
  intro n o s₁ s₂ r hx hgrow
  exact hgrow.trans (apply_effect (exec_eq_some hx).2).grow

theorem Calm.grow (hs : Calm u s) (req : Request) : Grow u s (s.serve u req) := by
  have hruns := (hs.serve req).1
  cases req with
  | handle g ctx a pick =>
    obtain ⟨answer, hruns⟩ := hruns
    exact Runs.grow hruns
  | deliverAppMessage g sid x msg =>
    obtain ⟨answer, hruns⟩ := hruns
    exact Runs.grow hruns
  | receive c =>
    change Grow u s (s.receive c)
    unfold CollabService.receive
    split
    · exact .refl u s
    · rename_i htake
      exact (Rely.take? (g := .direct 0) htake).toGrow

/-- The client is in the room that is registered under the session. -/
def Houses (s : CollabService) (sid c : String) : Prop :=
  ∃ r, s.getRoomByID sid = some r ∧ c ∈ (s.roomAt r).clients

theorem Houses.found {sid : String} (h : Houses s sid c) :
    (s.findRoomForClient c).isSome = true := by
  obtain ⟨r, hr, hc⟩ := h
  obtain ⟨r', hfind⟩ := findRoomForClient_isSome hr hc
  rw [hfind, Option.isSome_some]

theorem SameRooms.houses_iff (h : SameRooms s s') (sid c : String) :
    Houses s' sid c ↔ Houses s sid c := by
  unfold Houses
  simp only [h.getRoomByID, h.clients]

/-- Nobody has the empty id. -/
theorem RoomsWF.not_houses_empty (hs : RoomsWF u s) (sid : String) : ¬ Houses s sid "" := by
  rintro ⟨r, -, hc⟩
  obtain ⟨-, -, k, -, hk⟩ := hs.member hc
  exact u.new_ne_empty k hk.symm

/-- A request leaves a client in its room, under the session of that room, exactly when it
does not remove it. -/
theorem serve_houses_iff {sid : String} (hs : RoomInv u s) (hcalm : Calm u s)
    (hc : Houses s sid c) (req : Request) :
    Houses (s.serve u req) sid c ↔ ¬ Removes s c req := by
  obtain ⟨r, hr, hc⟩ := hc
  have hgrow := hcalm.grow req
  rw [← mem_serve_iff hs (fun _ _ => hcalm.opened) hc req]
  constructor
  · rintro ⟨r', -, hc'⟩
    have hbefore : c ∈ (s.roomAt r').clients := by
      by_contra hnot
      exact hgrow.gone (hs.wf.member hc).2.2 hnot hc'
    rwa [hs.wf.room_unique hc hbefore]
  · intro hc'
    obtain ⟨hsid, hlt⟩ := hs.wf.registered hr
    have hlive := (hs.serve req).wf.live hc'
    rw [hgrow.session hlt, hsid] at hlive
    exact ⟨r, hlive, hc'⟩

/-- Whoever is let into a room is in the one that its answer names. -/
theorem handleJoin_houses {ctx : Ctx} {join : JoinRoom} {w : RoomJoined}
    (hanswer : roomJoined? (s.handleJoin u g ctx join).2 = some w) :
    Houses (s.handleJoin u g ctx join).1 w.room.sessionId w.clientId := by
  have haccepted : ∀ {s₁ : CollabService} {sid : String} {r : RoomRef},
      s₁.getRoomByID sid = some r →
      roomJoined? (s₁.accept u g ctx join sid r).2 = some w →
      Houses (s₁.accept u g ctx join sid r).1 w.room.sessionId w.clientId := by
    intro s₁ sid r hr hw
    obtain rfl := Option.some.inj ((roomJoined?_accept s₁).symm.trans hw)
    refine ((SameRooms.accept s₁).houses_iff _ _).mpr ⟨r, hr, ?_⟩
    rw [enrolled_roomAt_self]
    exact List.mem_insert_self
  have hrefused : ∀ {a : Answer}, a.refuses = true → roomJoined? a ≠ some w := by
    intro a ha
    rw [roomJoined?_of_refuses ha]
    exact (Option.some_ne_none w).symm
  have hcase := handleJoin_case (u := u) s g ctx join
  generalize s.handleJoin u g ctx join = result at hcase hanswer ⊢
  cases hcase with
  | forbidden e _ he => exact absurd hanswer (hrefused he)
  | lost e _ _ he => exact absurd hanswer (hrefused he)
  | turnedAway r _ _ hrefuse =>
    exact absurd hanswer (hrefused (enterRoom_answer_refuses.trans
      ((atLookup_refuses s r).trans hrefuse)))
  | createdRefused _ _ _ hrefuse =>
    exact absurd hanswer (hrefused (enterRoom_answer_refuses.trans hrefuse))
  | joined r _ hr haccept =>
    have hsame : SameRooms s ((s.atLookup u join).declareEncrypted r join) :=
      (SameRooms.atLookup s join).trans (SameRooms.declareEncrypted _ r join)
    exact haccepted ((hsame.getRoomByID _).trans hr) hanswer
  | created _ hr _ haccept =>
    have hsame := SameRooms.declareEncrypted (s.atCreated u join) s.nextRoom join
    refine haccepted ?_ hanswer
    rw [hsame.getRoomByID, (atCreated_eq hr).2.1, if_pos rfl]

end CollabService

/-- A `JoinRoom` is refused as a second one. -/
def Answer.alreadyJoined : Answer → Bool
  | .event { event := .error e, .. } => e.code = "ALREADY_JOINED"
  | _ => false

def Stream.isLeave : Option Action → Bool
  | some (.leave _) => true
  | _ => false

/-- The client that the stream joined last. -/
def Stream.lastJoined (st : Stream) : Option String := st.answered.getLast?.map (·.clientId)

/-! ### Calls of a stream that do not overlap -/

namespace Serial

open CollabService MassRelay.Stream

variable {u : UuidSource} {cfg : StreamConfig} {i : Nat} {s t : Relay} {a : CollabAction}
variable {answer : Answer} {allowed : Bool} {pick n : Nat}

/-- Store the ids after a join and start forwarding room events. -/
def startBridge (i : Nat) (rj : RoomJoined) (s : Relay) : Relay :=
  let s := s.modifyStream i fun st =>
    { st with
      sessionId := rj.room.sessionId
      clientId := rj.clientId
      answered := st.answered ++ [rj]
      unanswered := rj.clientId :: st.unanswered }
  if (s.svc.getClient rj.room.sessionId rj.clientId).isSome then s.setBridge i
    rj.clientId .forwarding
  else s

/-- A join that was answered with `RoomJoined`. -/
def noteJoined (i : Nat) (joining : Bool) (answer : Answer) (s : Relay) : Relay :=
  match roomJoined? answer with
  | some rj => if joining then startBridge i rj s else s
  | none => s

/-- `HandleAction` and what a `Send` notes of its answer. -/
def sendAction (u : UuidSource) (cfg : StreamConfig) (i : Nat) (a : CollabAction) (pick : Nat)
    (s : Relay) : Relay × Answer :=
  let (svc, answer) := s.svc.handleAction u (.send i) cfg.principal a pick
  (noteJoined i (isJoin a.action) answer { s with svc }, answer)

def refuse (u : UuidSource) (code message : String) (s : Relay) : Relay × Answer :=
  ({ s with svc := s.svc.tick }, .event (errorEvent (s.svc.uuid u) code message))

/-- `Send` past the rate limiter. -/
def sendChecked (u : UuidSource) (cfg : StreamConfig) (i : Nat) (a : CollabAction) (pick : Nat)
    (s : Relay) : Relay × Answer :=
  let joinedAs := (s.streams i).clientId
  if isJoin a.action then
    if joinedAs ≠ "" then
      refuse u "ALREADY_JOINED"
        "This connection is already in a room; open another connection to join a second one" s
    else sendAction u cfg i a pick s
  else if joinedAs = "" then (s, .err (typeName a.action ++ " sent before joining a room"))
  else sendAction u cfg i { a with clientId := joinedAs } pick s

/-- `Send` up to its reply: an event to reply with, or what it returns. `allowed` is the
rate limiter's answer. -/
def send (u : UuidSource) (cfg : StreamConfig) (i : Nat) (a : CollabAction) (allowed : Bool)
    (pick : Nat) (s : Relay) : Relay × Answer :=
  match cfg.messageLimiter with
  | none => sendChecked u cfg i a pick s
  | some limit =>
    if isControl a.action || allowed then sendChecked u cfg i a pick s
    else refuse u "RATE_LIMITED" (rateLimitedMessage a.actionId limit) s

/-- What can happen to a stream and its service when calls do not overlap: a `Send` and a
`Recv` of the stream, and a request of anyone else. -/
inductive Move
  | send (a : CollabAction) (allowed : Bool) (pick n : Nat)
  | recv
  | request (req : Request)

/-- The reply of a `Send`, if it has one. -/
def finish (i n : Nat) : Relay × Answer → Option Relay
  | (s, .event e) => (s.reply i e n).map (·.1)
  | (s, _) => some s

/-- One move; `none` where the reply of a `Send` or a `Recv` has to wait. -/
def step (u : UuidSource) (cfg : StreamConfig) (i : Nat) (s : Relay) : Move → Option Relay
  | .send a allowed pick n => finish i n (send u cfg i a allowed pick s)
  | .recv => s.recv i
  | .request req => some { s with svc := s.svc.serve u req }

/-- A relay on which nothing has happened yet. -/
def opening (maxPeers : Int) : Relay := { svc := newCollabService maxPeers }

/-! ### The programs -/

/-- The relay between two moves: no call is under way, and the stream is open. -/
structure Rested (u : UuidSource) (i : Nat) (s : Relay) : Prop where
  calm : Calm u s.svc
  up : s.panicked = false
  opened : (s.streams i).sendCh.closed = false

theorem Rested.crashed (hs : Rested u i s) : s.crashed = false := by
  rw [Relay.crashed, hs.up, hs.calm.up]
  rfl

/-- What storing an answer does to the stream. -/
theorem startBridge_eq (i : Nat) (rj : RoomJoined) (s : Relay) : ∃ bridges,
    startBridge i rj s = s.modifyStream i fun st =>
      { st with
        sessionId := rj.room.sessionId
        clientId := rj.clientId
        answered := st.answered ++ [rj]
        unanswered := rj.clientId :: st.unanswered
        bridges } := by
  unfold startBridge
  dsimp only
  split
  · refine ⟨Function.update (s.streams i).bridges rj.clientId .forwarding, ?_⟩
    rw [Relay.setBridge, Relay.modifyStream_modifyStream]
    rfl
  · exact ⟨(s.streams i).bridges, rfl⟩

/-- Only the ids, the bridges and the history of a stream change with a join. -/
theorem noteJoined_frame (i : Nat) (joining : Bool) (answer : Answer) (s : Relay) :
    (noteJoined i joining answer s).svc = s.svc ∧
      (noteJoined i joining answer s).panicked = s.panicked ∧
      ((noteJoined i joining answer s).streams i).sendCh = (s.streams i).sendCh := by
  unfold noteJoined
  cases roomJoined? answer with
  | none => exact ⟨rfl, rfl, rfl⟩
  | some rj =>
    cases joining with
    | false => exact ⟨rfl, rfl, rfl⟩
    | true =>
      obtain ⟨bridges, heq⟩ := startBridge_eq i rj s
      change (startBridge i rj s).svc = _ ∧ (startBridge i rj s).panicked = _ ∧
        ((startBridge i rj s).streams i).sendCh = _
      rw [heq]
      refine ⟨rfl, rfl, ?_⟩
      rw [Relay.modifyStream_self]

theorem Rested.noteJoined (hs : Rested u i s) (joining : Bool) :
    Rested u i (noteJoined i joining answer s) := by
  obtain ⟨hsvc, hpanicked, hsendCh⟩ := noteJoined_frame i joining answer s
  refine ⟨?_, ?_, ?_⟩
  · rw [hsvc]
    exact hs.calm
  · rw [hpanicked]
    exact hs.up
  · rw [hsendCh]
    exact hs.opened

theorem Rested.svc {svc : CollabService} (hs : Rested u i s) (hcalm : Calm u svc) :
    Rested u i { s with svc } :=
  ⟨hcalm, hs.up, hs.opened⟩

/-- A call of the service, run alone in the relay. -/
theorem proc_runs {α : Type} {g : Goroutine} {p : Call α} {r : α} {svc : CollabService}
    (hup : s.panicked = false) (h : p.Runs (ServiceOp.exec u g) s.svc r svc) :
    p.proc.Runs (Op.exec u g) s r { s with svc } := by
  induction p generalizing s with
  | ret r' =>
    obtain ⟨rfl, rfl⟩ := h
    exact ⟨rfl, rfl⟩
  | op o k ih =>
    obtain ⟨n, svc₁, r₁, hx, hrest⟩ := h
    obtain ⟨hsvc, happly⟩ := exec_eq_some hx
    refine ⟨n, { s with svc := svc₁ }, r₁, ?_, ih r₁ (s := { s with svc := svc₁ }) hup hrest⟩
    have hcrashed : s.crashed = false := by rw [Relay.crashed, hup, hsvc]; rfl
    simp only [Op.exec, hcrashed, happly, Bool.false_eq_true, if_false, Option.map_some]

/-- A step on the stream, run alone. -/
theorem perform_runs {g : Goroutine} {o : StreamOp} {r : o.Res} (hs : Rested u i s)
    (h : o.apply i n s = some (t, r)) : (perform i o).Runs (Op.exec u g) s r t := by
  refine ⟨n, t, r, ?_, rfl, rfl⟩
  simp only [Op.exec, hs.crashed, Bool.false_eq_true, if_false]
  exact h

theorem reply_runs {g : Goroutine} {e : CollabEvent} (hs : Rested u i s)
    (h : (s.reply i e n).map (·.1) = some t) :
    ∃ r, (Stream.reply i e).Runs (Op.exec u g) s r t := by
  obtain ⟨⟨t, queued⟩, hreply, rfl⟩ := Option.map_eq_some_iff.mp h
  exact ⟨_, (perform_runs (o := .reply e) hs hreply).bind ⟨rfl, rfl⟩⟩

theorem uuid_alone {g : Goroutine} {svc : CollabService} (hs : Calm u svc) :
    Alone u g Call.uuid svc (svc.uuid u) svc.tick :=
  .perform (n := 0) hs rfl rfl

theorem refuse_runs {g : Goroutine} {code message : String} (hs : Rested u i s)
    (h : finish i n (refuse u code message s) = some t) :
    ∃ r, (Stream.refuse i code message).Runs (Op.exec u g) s r t := by
  have huuid := uuid_alone (g := g) hs.calm
  obtain ⟨r, hreply⟩ := reply_runs (g := g) (hs.svc huuid.calm) h
  exact ⟨r, (proc_runs hs.up huuid.runs).bind hreply⟩

theorem getClient_alone {g : Goroutine} {svc : CollabService} (hs : Calm u svc) (sid c : String) :
    Alone u g (Call.getClient sid c) svc (svc.getClient sid c).isSome svc := by
  unfold Call.getClient CollabService.getClient
  refine .step hs rfl rfl fun hs => ?_
  cases svc.getRoomByID sid with
  | none => exact .ret hs _
  | some r =>
    refine .perform (n := 0) hs rfl ?_
    simp only [ServiceOp.apply, Option.bind_some]
    split <;> simp_all

theorem startBridge_runs {g : Goroutine} (rj : RoomJoined) (hs : Rested u i s) :
    (Stream.startBridge i rj).Runs (Op.exec u g) s () (startBridge i rj s) := by
  have hstored : Rested u i (s.modifyStream i fun st =>
      { st with
        sessionId := rj.room.sessionId
        clientId := rj.clientId
        answered := st.answered ++ [rj]
        unanswered := rj.clientId :: st.unanswered }) := by
    refine ⟨hs.calm, hs.up, ?_⟩
    rw [Relay.modifyStream_self]
    exact hs.opened
  refine (perform_runs (n := 0) (o := .store rj) hs rfl).bind ?_
  refine (proc_runs hstored.up (getClient_alone hstored.calm _ _).runs).bind ?_
  unfold startBridge Prog.onlyIf
  dsimp only
  split
  · exact perform_runs (n := 0) (o := .goBridge rj.clientId) hstored rfl
  · exact ⟨rfl, rfl⟩

/-- What a `Send` does with an answer. -/
theorem sendAnswer_runs {g : Goroutine} {joining : Bool} (hs : Rested u i s)
    (h : finish i n (noteJoined i joining answer s, answer) = some t) :
    ∃ r, (Stream.sendAnswer i joining answer).Runs (Op.exec u g) s r t := by
  cases answer with
  | err message => exact ⟨some message, rfl, Option.some.inj h⟩
  | nothing => exact ⟨none, rfl, Option.some.inj h⟩
  | event e =>
    obtain ⟨r, hreply⟩ := reply_runs (g := g) (hs.noteJoined joining) h
    refine ⟨r, Prog.Runs.bind (a := ()) ?_ hreply⟩
    obtain ⟨eventId, fromClientId, event⟩ := e
    cases event with
    | roomJoined rj =>
      simp only [Stream.noteJoined, noteJoined, roomJoined?]
      unfold Prog.onlyIf
      split
      · exact startBridge_runs rj hs
      · exact ⟨rfl, rfl⟩
    | _ => exact ⟨rfl, rfl⟩

theorem sendAction_runs (hs : Rested u i s)
    (h : finish i n (sendAction u cfg i a pick s) = some t) :
    ∃ r, (Stream.sendAction cfg i a).Runs (Op.exec u (.send i)) s r t := by
  have hcall := handleAction_runs (g := .send i) hs.calm cfg.principal a pick
  obtain ⟨r, hanswer⟩ := sendAnswer_runs (g := .send i) (hs.svc hcall.calm) h
  exact ⟨r, (proc_runs hs.up hcall.runs).bind hanswer⟩

theorem sendChecked_runs (hs : Rested u i s)
    (h : finish i n (sendChecked u cfg i a pick s) = some t) :
    ∃ r, (Stream.sendChecked cfg i a).Runs (Op.exec u (.send i)) s r t := by
  have hread := perform_runs (g := .send i) (n := 0) (o := .readClientId) hs rfl
  unfold sendChecked at h
  dsimp only at h
  by_cases hjoin : isJoin a.action = true
  · rw [if_pos hjoin] at h
    by_cases hjoined : (s.streams i).clientId ≠ ""
    · rw [if_pos hjoined] at h
      obtain ⟨r, hrefuse⟩ := refuse_runs (g := .send i) hs h
      refine ⟨r, hread.bind ?_⟩
      rw [if_pos hjoin, if_pos hjoined]
      exact hrefuse
    · rw [if_neg hjoined] at h
      obtain ⟨r, hrest⟩ := sendAction_runs hs h
      refine ⟨r, hread.bind ?_⟩
      rw [if_pos hjoin, if_neg hjoined]
      exact hrest
  · rw [if_neg hjoin] at h
    by_cases hnone : (s.streams i).clientId = ""
    · rw [if_pos hnone] at h
      refine ⟨some (typeName a.action ++ " sent before joining a room"), hread.bind ?_⟩
      rw [if_neg hjoin, if_pos hnone]
      exact ⟨rfl, Option.some.inj h⟩
    · rw [if_neg hnone] at h
      obtain ⟨r, hrest⟩ := sendAction_runs hs h
      refine ⟨r, hread.bind ?_⟩
      rw [if_neg hjoin, if_neg hnone]
      exact hrest

/-- A `Send` that replies is its program, run without interruption. -/
theorem send_runs (hs : Rested u i s)
    (h : finish i n (send u cfg i a allowed pick s) = some t) :
    ∃ r, (Stream.send cfg i a).Runs (Op.exec u (.send i)) s r t := by
  unfold send at h
  unfold Stream.send
  cases hlimiter : cfg.messageLimiter with
  | none =>
    rw [hlimiter] at h
    exact sendChecked_runs hs h
  | some limit =>
    simp only [hlimiter] at h
    dsimp only
    by_cases hcontrol : isControl a.action = true
    · rw [if_pos (by rw [hcontrol, Bool.true_or])] at h
      rw [if_pos hcontrol]
      exact sendChecked_runs hs h
    · have hanswer : StreamOp.allow.apply i (if allowed then 0 else 1) s = some (s, allowed) := by
        clear h
        cases allowed <;> rfl
      have hallow := perform_runs (g := .send i) hs hanswer
      rw [Bool.eq_false_of_not_eq_true hcontrol, Bool.false_or] at h
      rw [if_neg hcontrol]
      by_cases hallowed : allowed = true
      · rw [if_pos hallowed] at h
        obtain ⟨r, hrest⟩ := sendChecked_runs hs h
        refine ⟨r, hallow.bind ?_⟩
        rw [if_pos hallowed]
        exact hrest
      · rw [if_neg hallowed] at h
        obtain ⟨r, hrefuse⟩ := refuse_runs (g := .send i) hs h
        refine ⟨r, hallow.bind ?_⟩
        rw [if_neg hallowed]
        exact hrefuse

/-! ### What a move leaves alone -/

/-- The stream remembers what it did, and the service is as it was. -/
structure SameIds (i : Nat) (s t : Relay) : Prop where
  svc : t.svc = s.svc
  sessionId : (t.streams i).sessionId = (s.streams i).sessionId
  clientId : (t.streams i).clientId = (s.streams i).clientId
  answered : (t.streams i).answered = (s.streams i).answered

theorem put?_rested {item : Item} (hs : Rested u i s) (h : s.put? i item = some t) :
    Rested u i t := by
  rcases Relay.put?_cases h with ⟨hclosed, -⟩ | ⟨-, ch, hpush, rfl⟩
  · exact absurd (hs.opened.symm.trans hclosed) Bool.false_ne_true
  · refine ⟨hs.calm, hs.up, ?_⟩
    rw [Relay.modifyStream_self]
    exact (Go.Chan.push?_eq_some hpush).2.trans hs.opened

theorem noteReplied_rested {e : CollabEvent} (hs : Rested u i s) :
    Rested u i (s.noteReplied i e) := by
  unfold Relay.noteReplied
  split
  · refine ⟨hs.calm, hs.up, ?_⟩
    rw [Relay.modifyStream_self]
    exact hs.opened
  · exact hs

theorem reply_rested {e : CollabEvent} {queued : Bool} (hs : Rested u i s)
    (h : s.reply i e n = some (t, queued)) : Rested u i t := by
  unfold Relay.reply at h
  split at h
  · obtain ⟨s₁, hput, heq⟩ := Option.map_eq_some_iff.mp h
    obtain ⟨rfl, -⟩ := Prod.mk.inj heq
    exact noteReplied_rested (put?_rested hs hput)
  · split at h
    · obtain ⟨rfl, -⟩ := Prod.mk.inj (Option.some.inj h)
      exact hs
    · simp at h

/-- The reply of a `Send` is put on the queue and does nothing else. -/
theorem finish_rested (hs : Rested u i s) (h : finish i n (s, answer) = some t) :
    Rested u i t ∧ SameIds i s t := by
  have hsame : SameIds i s s := ⟨rfl, rfl, rfl, rfl⟩
  cases answer with
  | event e =>
    obtain ⟨⟨t, queued⟩, hreply, rfl⟩ := Option.map_eq_some_iff.mp h
    have heffect := Relay.reply_effect hreply
    refine ⟨reply_rested hs hreply, heffect.svc, heffect.sessionId, heffect.clientId, ?_⟩
    exact heffect.answered.trans (List.append_nil _)
  | _ =>
    obtain rfl := Option.some.inj h
    exact ⟨hs, hsame⟩

theorem recv_rested (hs : Rested u i s) (h : s.recv i = some t) :
    Rested u i t ∧ SameIds i s t := by
  obtain ⟨⟨item, ch⟩, hpop, rfl⟩ := Option.map_eq_some_iff.mp h
  refine ⟨⟨hs.calm, hs.up, ?_⟩, rfl, ?_, ?_, ?_⟩ <;> rw [Relay.modifyStream_self]
  exact (Go.Chan.pop?_eq_some hpop).2.trans hs.opened

/-! ### A `Send` -/

/-- What a `Send` does: it is refused, by the rate limiter or as a second join, or as an action
of nobody, or it reaches the service. -/
inductive SendCase (u : UuidSource) (cfg : StreamConfig) (i : Nat) (a : CollabAction) (pick : Nat)
    (s : Relay) : Relay × Answer → Prop
  | limited (limit : String) (haction : isControl a.action = false) :
      SendCase u cfg i a pick s (refuse u "RATE_LIMITED" (rateLimitedMessage a.actionId limit) s)
  | second (hjoin : isJoin a.action = true) (hjoined : (s.streams i).clientId ≠ "") :
      SendCase u cfg i a pick s (refuse u "ALREADY_JOINED"
        "This connection is already in a room; open another connection to join a second one" s)
  | early (hjoin : isJoin a.action = false) (hnone : (s.streams i).clientId = "") :
      SendCase u cfg i a pick s (s, .err (typeName a.action ++ " sent before joining a room"))
  | join (hjoin : isJoin a.action = true) (hnone : (s.streams i).clientId = "") :
      SendCase u cfg i a pick s (sendAction u cfg i a pick s)
  | action (hjoin : isJoin a.action = false) (hjoined : (s.streams i).clientId ≠ "") :
      SendCase u cfg i a pick s
        (sendAction u cfg i { a with clientId := (s.streams i).clientId } pick s)

theorem send_case (u : UuidSource) (cfg : StreamConfig) (i : Nat) (a : CollabAction)
    (allowed : Bool) (pick : Nat) (s : Relay) :
    SendCase u cfg i a pick s (send u cfg i a allowed pick s) := by
  have hchecked : SendCase u cfg i a pick s (sendChecked u cfg i a pick s) := by
    unfold sendChecked
    dsimp only
    cases hjoin : isJoin a.action with
    | true =>
      rw [if_pos rfl]
      split
      · rename_i hjoined
        exact .second hjoin hjoined
      · rename_i hjoined
        exact .join hjoin (not_not.mp hjoined)
    | false =>
      rw [if_neg Bool.false_ne_true]
      split
      · rename_i hnone
        exact .early hjoin hnone
      · rename_i hjoined
        exact .action hjoin hjoined
  unfold send
  split
  · exact hchecked
  · split
    · exact hchecked
    · rename_i limit _ hnot
      simp only [Bool.or_eq_true, not_or, Bool.not_eq_true] at hnot
      exact .limited limit hnot.1

/-- No check of the service refuses a join as a second one. -/
theorem handleJoin_not_alreadyJoined {g : Goroutine} {ctx : Ctx} (join : JoinRoom)
    (svc : CollabService) : (svc.handleJoin u g ctx join).2.alreadyJoined = false := by
  unfold handleJoin
  split
  · rfl
  · dsimp only
    split
    · rfl
    · unfold enterRoom
      split
      · rfl
      · split
        · rfl
        · dsimp only
          split <;> rfl

/-- A join is refused as a second one when the stream has a client. -/
theorem send_join_refuses_iff {join : JoinRoom} (haction : a.action = some (.join join)) :
    (send u cfg i a allowed pick s).2.alreadyJoined = true ↔ (s.streams i).clientId ≠ "" := by
  have hcase := send_case u cfg i a allowed pick s
  generalize send u cfg i a allowed pick s = result at hcase
  cases hcase with
  | limited _ hcontrol => simp [haction, isControl] at hcontrol
  | second _ hjoined => exact iff_of_true rfl hjoined
  | early hjoin _ => simp [haction, isJoin] at hjoin
  | join _ hnone =>
    refine iff_of_false (fun h => ?_) (not_not.mpr hnone)
    have hanswer : (s.svc.handleAction u (.send i) cfg.principal a pick).2.alreadyJoined = true := h
    simp only [handleAction, haction] at hanswer
    exact Bool.false_ne_true ((handleJoin_not_alreadyJoined join s.svc).symm.trans hanswer)
  | action hjoin _ => simp [haction, isJoin] at hjoin

/-! ### What the stream remembers -/

/-- The stream knows whether its client is in a room: it refuses a join as a second one exactly
when the client it joined last is in one, and it has an id exactly when the client of that id
is in the room recorded with it. -/
structure Tracks (u : UuidSource) (cfg : StreamConfig) (i : Nat) (s : Relay) : Prop where
  refuses : ∀ (a : CollabAction) (join : JoinRoom) (allowed : Bool) (pick : Nat),
    a.action = some (.join join) →
      ((send u cfg i a allowed pick s).2.alreadyJoined = true ↔
        ∃ c, (s.streams i).lastJoined = some c ∧ (s.svc.findRoomForClient c).isSome = true)
  recorded : (s.streams i).clientId ≠ "" ↔
    Houses s.svc (s.streams i).sessionId (s.streams i).clientId

/-- The move does not take the stream's client out of its room behind its back. -/
def Keeps (i : Nat) (s : Relay) : Move → Prop
  | .send a _ _ _ => (s.streams i).clientId ≠ "" → isLeave a.action = false
  | .recv => True
  | .request req => ¬ Removes s.svc (s.streams i).clientId req

instance (i : Nat) (s : Relay) (m : Move) : Decidable (Keeps i s m) := by
  unfold Keeps
  split <;> infer_instance

/-- What holds whether or not the stream is right about its membership: its id is that of the
client it joined last. -/
structure Known (u : UuidSource) (i : Nat) (s : Relay) : Prop extends Rested u i s where
  rooms : RoomInv u s.svc
  last : (s.streams i).clientId = (s.streams i).lastJoined.getD ""
  issued : ∀ c, (s.streams i).lastJoined = some c → Issued u s.svc c

/-- The client that a stream with an id joined last is the one of that id. -/
theorem Known.lastJoined (hs : Known u i s) (hjoined : (s.streams i).clientId ≠ "") :
    (s.streams i).lastJoined = some (s.streams i).clientId := by
  have hlast := hs.last
  cases h : (s.streams i).lastJoined with
  | none =>
    rw [h] at hlast
    exact absurd hlast hjoined
  | some c =>
    rw [h] at hlast
    exact congrArg some hlast.symm

/-- If the stream has an id, then the client of that id is in its room. -/
def Present (i : Nat) (s : Relay) : Prop :=
  (s.streams i).clientId ≠ "" → Houses s.svc (s.streams i).sessionId (s.streams i).clientId

/-- Both halves of what a stream is to know come to this. -/
theorem Known.tracks_iff (hs : Known u i s) : Tracks u cfg i s ↔ Present i s := by
  constructor
  · exact fun h => h.recorded.mp
  · intro hhouses
    constructor
    · intro a join allowed pick haction
      rw [send_join_refuses_iff haction]
      constructor
      · exact fun hjoined => ⟨_, hs.lastJoined hjoined, (hhouses hjoined).found⟩
      · rintro ⟨c, hlast, -⟩
        obtain ⟨k, -, hk⟩ := hs.issued c hlast
        rw [hs.last, hlast, Option.getD_some, hk]
        exact u.new_ne_empty k
    · refine ⟨hhouses, fun h hnone => ?_⟩
      rw [hnone] at h
      exact hs.rooms.wf.not_houses_empty _ h

theorem Known.sameIds (hs : Known u i s) (hrested : Rested u i t)
    (hsame : SameIds i s t) : Known u i t := by
  have hlast : (t.streams i).lastJoined = (s.streams i).lastJoined := by
    rw [Stream.lastJoined, hsame.answered, Stream.lastJoined]
  refine ⟨hrested, ?_, ?_, ?_⟩
  · rw [hsame.svc]
    exact hs.rooms
  · rw [hsame.clientId, hlast]
    exact hs.last
  · rw [hlast, hsame.svc]
    exact hs.issued

theorem SameIds.present_iff (h : SameIds i s t) : Present i t ↔ Present i s := by
  rw [Present, Present, h.clientId, h.sessionId, h.svc]

theorem Known.serve (hs : Known u i s) (req : Request) :
    Known u i { s with svc := s.svc.serve u req } where
  toRested := hs.toRested.svc (hs.calm.serve req).2
  rooms := hs.rooms.serve req
  last := hs.last
  issued c hc := (hs.issued c hc).mono (hs.calm.grow req).nextUuid

theorem Known.tick (hs : Known u i s) : Known u i { s with svc := s.svc.tick } where
  toRested := hs.toRested.svc (uuid_alone (g := .direct 0) hs.calm).calm
  rooms := hs.rooms.of_sameRooms (.tick s.svc)
  last := hs.last
  issued c hc := (hs.issued c hc).mono (SameRooms.tick s.svc).nextUuid

/-- The stream is right after a request exactly when that does not remove its client. -/
theorem Known.present_serve_iff (hs : Known u i s) (hpresent : Present i s) (req : Request) :
    Present i { s with svc := s.svc.serve u req } ↔
      ((s.streams i).clientId ≠ "" → ¬ Removes s.svc (s.streams i).clientId req) := by
  refine forall_congr' fun hjoined => ?_
  exact serve_houses_iff hs.rooms hs.calm (hpresent hjoined) req

/-- Nobody is removed under the empty id. -/
theorem not_removes_empty {svc : CollabService} (hs : RoomsWF u svc) (req : Request) :
    ¬ Removes svc "" req := by
  unfold Removes
  split
  · rintro ⟨hsome, -⟩
    obtain ⟨r, hfind⟩ := Option.isSome_iff_exists.mp hsome
    obtain ⟨⟨sid, hr⟩, hc⟩ := findRoomForClient_eq_some hfind
    exact hs.not_houses_empty sid ⟨r, hr, hc⟩
  · exact id

/-- In its own name, a client is removed by a leave. -/
theorem removes_self_iff {svc : CollabService} {g : Goroutine} {ctx : Ctx} {c : String}
    (hc : (svc.findRoomForClient c).isSome = true) :
    ¬ Removes svc c (.handle g ctx { a with clientId := c } pick) ↔ isLeave a.action = false := by
  obtain ⟨actionId, clientId, action⟩ := a
  cases action with
  | none => exact iff_of_true id rfl
  | some action =>
    cases action with
    | leave leave =>
      refine iff_of_false (not_not.mpr ⟨hc, rfl, Or.inl rfl⟩) fun h => ?_
      exact Bool.false_ne_true h.symm
    | _ => exact iff_of_true id rfl

/-- A join that is answered with `RoomJoined` lets its client in. -/
theorem Known.joined {rj : RoomJoined} (hs : Known u i s) (haction : isJoin a.action = true)
    (hanswer : roomJoined? (s.svc.handleAction u (.send i) cfg.principal a pick).2 = some rj) :
    Known u i (startBridge i rj
        { s with svc := (s.svc.handleAction u (.send i) cfg.principal a pick).1 }) ∧
      Present i (startBridge i rj
        { s with svc := (s.svc.handleAction u (.send i) cfg.principal a pick).1 }) := by
  obtain ⟨actionId, clientId, action⟩ := a
  cases action with
  | none => simp [isJoin] at haction
  | some action =>
    cases action with
    | join join =>
      have hserved :=
        hs.serve (.handle (.send i) cfg.principal ⟨actionId, clientId, some (.join join)⟩
        pick)
      obtain ⟨bridges, heq⟩ := startBridge_eq i rj
        { s with svc := (s.svc.handleJoin u (.send i) cfg.principal join).1 }
      obtain ⟨r, hwelcomed⟩ := handleJoin_welcomed hs.rooms (fun _ _ => hs.calm.opened) hanswer
      simp only [handleAction]
      rw [heq]
      constructor
      · refine ⟨⟨hserved.calm, hserved.up, ?_⟩, hserved.rooms, ?_, ?_⟩
        · rw [Relay.modifyStream_self]
          exact hs.opened
        · rw [Relay.modifyStream_self]
          simp [Stream.lastJoined]
        · intro c hc
          rw [Relay.modifyStream_self] at hc
          obtain rfl : rj.clientId = c := by simpa [Stream.lastJoined] using hc
          exact hwelcomed.issued
      · intro _
        rw [Relay.modifyStream_self]
        exact handleJoin_houses hanswer
    | _ => simp [isJoin] at haction

/-- An action that reaches the service, in the name of the stream's client. -/
theorem sendAction_eq (hjoin : isJoin a.action = false) : (sendAction u cfg i a pick s).1 =
    { s with svc := s.svc.serve u (.handle (.send i) cfg.principal a pick) } := by
  unfold sendAction noteJoined
  dsimp only
  rw [hjoin]
  split <;> rfl

theorem Known.send (hs : Known u i s) : Known u i (send u cfg i a allowed pick s).1 := by
  have hcase := send_case u cfg i a allowed pick s
  generalize Serial.send u cfg i a allowed pick s = result at hcase ⊢
  cases hcase with
  | limited limit _ => exact hs.tick
  | second _ _ => exact hs.tick
  | early _ _ => exact hs
  | join hjoin hnone =>
    simp only [sendAction, noteJoined, hjoin, if_true]
    cases hanswer : roomJoined? (s.svc.handleAction u (.send i) cfg.principal a pick).2 with
    | none => exact hs.serve (.handle (.send i) cfg.principal a pick)
    | some rj => exact (hs.joined hjoin hanswer).1
  | action hjoin hjoined =>
    rw [sendAction_eq (a := { a with clientId := (s.streams i).clientId }) hjoin]
    exact hs.serve _

/-- A `Send` leaves the stream right exactly when it is no leave of its client. -/
theorem Known.present_send_iff (hs : Known u i s) (hpresent : Present i s) :
    Present i (Serial.send u cfg i a allowed pick s).1 ↔ Keeps i s (.send a allowed pick n) := by
  have hcase := send_case u cfg i a allowed pick s
  generalize Serial.send u cfg i a allowed pick s = result at hcase ⊢
  have hrefused : isLeave a.action = false →
      (Present i { s with svc := s.svc.tick } ↔ Keeps i s (.send a allowed pick n)) := by
    intro hleave
    refine iff_of_true (fun hjoined => ?_) fun _ => hleave
    exact ((SameRooms.tick s.svc).houses_iff _ _).mpr (hpresent hjoined)
  cases hcase with
  | limited limit hcontrol =>
    refine hrefused ?_
    unfold isLeave
    split
    · simp_all [isControl]
    · rfl
  | second hjoin hjoined =>
    refine hrefused ?_
    unfold isLeave
    split
    · simp_all [isJoin]
    · rfl
  | early hjoin hnone => exact iff_of_true hpresent fun hjoined => absurd hnone hjoined
  | join hjoin hnone =>
    refine iff_of_true ?_ fun hjoined => absurd hnone hjoined
    simp only [sendAction, noteJoined, hjoin, if_true]
    cases hanswer : roomJoined? (s.svc.handleAction u (.send i) cfg.principal a pick).2 with
    | none => exact fun hjoined => absurd hnone hjoined
    | some rj => exact (hs.joined hjoin hanswer).2
  | action hjoin hjoined =>
    rw [sendAction_eq (a := { a with clientId := (s.streams i).clientId }) hjoin]
    refine (hs.present_serve_iff hpresent _).trans ?_
    exact forall_congr' fun _ => removes_self_iff (hpresent hjoined).found

/-! ### Every run -/

variable {m : Move}

theorem Known.step (hs : Known u i s) (h : step u cfg i s m = some t) : Known u i t := by
  cases m with
  | send a allowed pick n =>
    have hsent : Known u i (Serial.send u cfg i a allowed pick s).1 := hs.send
    obtain ⟨hrested, hsame⟩ := finish_rested hsent.toRested h
    exact hsent.sameIds hrested hsame
  | recv =>
    obtain ⟨hrested, hsame⟩ := recv_rested hs.toRested h
    exact hs.sameIds hrested hsame
  | request req =>
    obtain rfl := Option.some.inj h
    exact hs.serve req

/-- A move leaves the stream right exactly when it does not take the client out of its room
behind its back. -/
theorem Known.present_step_iff (hs : Known u i s) (hpresent : Present i s)
    (h : Serial.step u cfg i s m = some t) : Present i t ↔ Keeps i s m := by
  cases m with
  | send a allowed pick n =>
    have hsent : Known u i (Serial.send u cfg i a allowed pick s).1 := hs.send
    exact (finish_rested hsent.toRested h).2.present_iff.trans (hs.present_send_iff hpresent)
  | recv => exact iff_of_true ((recv_rested hs.toRested h).2.present_iff.mpr hpresent) trivial
  | request req =>
    obtain rfl := Option.some.inj h
    refine (hs.present_serve_iff hpresent req).trans ⟨fun hkeeps => ?_, fun hkeeps _ => hkeeps⟩
    by_cases hjoined : (s.streams i).clientId = ""
    · rw [Keeps, hjoined]
      exact not_removes_empty hs.rooms.wf req
    · exact hkeeps hjoined

theorem Known.opening (maxPeers : Int) : Known u i (opening maxPeers) where
  calm := .new maxPeers
  up := rfl
  opened := rfl
  rooms := .new maxPeers
  last := rfl
  issued c hc := by simp [Serial.opening, Stream.lastJoined] at hc

theorem Known.run {ms : List Move} (hs : Known u i s)
    (h : Machine.exec (Serial.step u cfg i) s ms = some t) : Known u i t :=
  Machine.invariant_guarded (G := fun _ _ => True) (fun _ _ _ hs _ h => hs.step h) hs
    (Machine.guarded_of_forall fun _ _ _ => trivial) h

/-- What a move does in the relay when nothing comes between its steps. -/
def Move.Runs (u : UuidSource) (cfg : StreamConfig) (i : Nat) (s t : Relay) : Move → Prop
  | .send a _ _ _ => ∃ r, (Stream.send cfg i a).Runs (Op.exec u (.send i)) s r t
  | .recv => s.recv i = some t
  | .request req => req.Runs u s.svc t.svc ∧ t = { s with svc := t.svc }

/-- Every move of a serial run is its program, run without interruption. -/
theorem step_runs {maxPeers : Int} {ms : List Move}
    (hrun : Machine.exec (step u cfg i) (opening maxPeers) ms = some s)
    (h : step u cfg i s m = some t) : m.Runs u cfg i s t := by
  have hs : Known u i s := (Known.opening maxPeers).run hrun
  cases m with
  | send a allowed pick n => exact send_runs hs.toRested h
  | recv => exact h
  | request req =>
    obtain rfl := Option.some.inj h
    exact ⟨(hs.calm.serve req).1, rfl⟩

/-- In a run, a stream knows whether its client is in a room as long as nothing takes the client
out of it behind the stream's back, and no longer. -/
theorem tracks_throughout_iff (u : UuidSource) (cfg : StreamConfig) (i : Nat) (maxPeers : Int)
    (ms : List Move) {t : Relay}
    (hrun : Machine.exec (step u cfg i) (opening maxPeers) ms = some t) :
    Machine.Throughout (step u cfg i) (Tracks u cfg i) (opening maxPeers) ms ↔
      Machine.Guarded (step u cfg i) (Keeps i) (opening maxPeers) ms := by
  have hopening : Present i (opening maxPeers) := fun hjoined => absurd rfl hjoined
  refine Machine.throughout_iff_guarded (I := fun s => Known u i s ∧ Present i s) ?_ ?_ ?_
    ⟨.opening maxPeers, hopening⟩ hrun
  · exact fun s hs => hs.1.tracks_iff.mpr hs.2
  · exact fun s m s' hs hkeeps h => ⟨hs.1.step h, (hs.1.present_step_iff hs.2 h).mpr hkeeps⟩
  · intro s m s' hs h htracks
    exact (hs.1.present_step_iff hs.2 h).mp ((hs.1.step h).tracks_iff.mp htracks)

/-- A `Send` of stream 0 that finds a token and a free slot. -/
def sends (action : Action) : Move := .send { action := some action } true 0 0

/-- The stream joins a room in which the owner has another tab, which takes over when the owner
leaves. -/
def staysIn : List Move :=
  [.request (joinS1 true "b1"), .request (joinS1 false "b1"), sends (.join { sessionId := "s1" }),
    .recv, .request (.handle (.direct 0) none ⟨"", "u", some (.leave ⟨""⟩)⟩ 0),
      sends .sceneInitRequest]

/-- The stream stays in the room throughout, and knows it. -/
theorem staysIn_tracks : Machine.Throughout (step .unary {} 0) (Tracks .unary {} 0) (opening 10)
    staysIn := by
  have hrun : (Machine.execIf (step .unary {} 0) (Keeps 0) (opening 10) staysIn).isSome = true := by
    decide +kernel
  obtain ⟨t, ht⟩ := Option.isSome_iff_exists.mp hrun
  obtain ⟨hguard, hexec⟩ := Machine.execIf_eq_some ht
  exact (tracks_throughout_iff .unary {} 0 10 staysIn hexec).mpr hguard

/-- The stream joins, and its client leaves. -/
def leaves : List Move := [sends (.join { sessionId := "s1" }), sends (.leave ⟨""⟩)]

/-- The stream joins the room of an owner, who leaves. -/
def isEnded : List Move :=
  [.request (joinS1 true "b1"), sends (.join { sessionId := "s1" }),
    .request (.handle (.direct 0) none ⟨"", "u", some (.leave ⟨""⟩)⟩ 0)]

/-- A run, after which the stream knows a client that is in no room. -/
def GoesStale (ms : List Move) : Prop :=
  (Machine.exec (step .unary {} 0) (opening 10) ms).any (fun t =>
    (t.streams 0).clientId ≠ "" ∧ (t.svc.findRoomForClient (t.streams 0).clientId).isSome = false) =
      true

theorem GoesStale.notTracks {ms : List Move} (h : GoesStale ms) :
    ∃ t, Machine.exec (step .unary {} 0) (opening 10) ms = some t ∧ ¬ Tracks .unary {} 0 t := by
  obtain ⟨t, ht, hstate⟩ := (Option.any_eq_true _ _).mp h
  obtain ⟨hjoined, hnowhere⟩ := of_decide_eq_true hstate
  refine ⟨t, ht, fun htracks => ?_⟩
  exact Bool.false_ne_true (hnowhere.symm.trans (htracks.recorded.mp hjoined).found)

/-- Either way the stream still refuses to join, for a client that is in no room. -/
theorem joinedAs_stale :
    (∃ t, Machine.exec (step .unary {} 0) (opening 10) leaves = some t ∧
      ¬ Tracks .unary {} 0 t) ∧
    ∃ t, Machine.exec (step .unary {} 0) (opening 10) isEnded = some t ∧
      ¬ Tracks .unary {} 0 t := by
  have hleaves : GoesStale leaves := by unfold GoesStale; decide +kernel
  have hended : GoesStale isEnded := by unfold GoesStale; decide +kernel
  exact ⟨hleaves.notTracks, hended.notTracks⟩

end Serial

end MassRelay

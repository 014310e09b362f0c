import MassRelay.Server.Admission

/-!
# MassRelay.Server.Cleanup

What a stream leaves behind.

A stream knows the client of its join by the id that `Send` stores after `HandleAction`
has already put the client in its room. A cleanup (`leaveAndCleanup`) clears the id and
then leaves as the client, so it takes out what was stored before it, and only that: a
join that stores its id after the last cleanup leaves its client in the room for good
(`zombieAfterClose`, `joinedAfterEnd`).

So each client that a stream was answered with is the one whose id is stored, or is out
of every room of the service, or some goroutine of the stream has cleared its id and has
still to remove it (`Cleaning.kept`). Which of them is a state of the discipline
`cleanup`. Once nothing is stored after the last cleanup and no goroutine is left, the
second is the only possibility (`closed_leavesNobody`, `ended_leavesNobody`).
-/

namespace MassRelay

open Threads CollabService

variable {u : UuidSource} {cfg : Nat → StreamConfig} {i : Nat} {g : Goroutine}

/-! ### The discipline of a stream's goroutines -/

/-- Where a goroutine is with the client of its stream: it owes nothing, it found no client
id stored, or it has cleared the id of a client, which it has still to look for, or to
remove from the room it found it in. -/
inductive Stage
  | free
  | vacant
  | owes (c : String)
  | found (c : String) (r : RoomRef)

/-- It has no client to remove. -/
def Stage.Settled : Stage → Prop
  | .free | .vacant => True
  | .owes _ | .found _ _ => False

/-- What a goroutine of a stream did so far: whether it was started, is the one that ends
the session, and has cleared the client id. -/
structure Duty where
  begun : Bool := false
  entered : Bool := false
  cleared : Bool := false
  stage : Stage := .free

namespace Duty

/-- The steps on stream `i` that goroutine `g` of it may make. -/
def MayOn (i : Nat) (g : Goroutine) (d : Duty) : StreamOp → Prop
  | .readClientId => g = .send i ∧ d.stage.Settled
  | .store _ => g = .send i ∧ d.stage = .vacant
  | .onceEnter => d.entered = false ∧ d.cleared = false ∧ d.stage.Settled
  | .clear => d.begun = true ∧ d.cleared = false ∧ d.stage.Settled ∧
      (g = .watchClose i ∨ (∃ k, g = .closeSend i k) ∨ d.entered = true)
  | .closeEnded | .onceExit => d.entered = true ∧ d.cleared = true ∧ d.stage.Settled
  | .stopExpiry => d.cleared = false ∧ d.stage.Settled
  | _ => d.stage.Settled

def nextOn (d : Duty) : (o : StreamOp) → o.Res → Duty
  | .readClientId, joinedAs => { d with stage := if joinedAs = "" then .vacant else .free }
  | .store _, _ => { d with stage := .free }
  | .onceEnter, first => { d with entered := first }
  | .clear, ids =>
    { d with cleared := true, stage := if ids.1 ≠ "" ∧ ids.2 ≠ "" then .owes ids.2 else .free }
  | .onceExit, _ => { d with entered := false }
  | _, _ => d

end Duty

/-- The steps of the service that may come in a stage. -/
def Stage.May : Stage → ServiceOp → Prop
  | .owes c, o => o = .findRoomForClient c
  | .found _ _, .leaverFlags _ _ => True
  | .found c r, o => o = .removeClient r c
  | _, _ => True

def Stage.next : Stage → (o : ServiceOp) → o.Res → Stage
  | .owes c, .findRoomForClient _, room => room.elim .free (.found c)
  | .found _ _, .removeClient _ _, _ => .free
  | stage, _, _ => stage

/-- How the goroutines of stream `i` go about its client. -/
def cleanup (i : Nat) (g : Goroutine) : Discipline Op Op.Res Duty where
  may d
    | .service o => g.stream? = some i → d.stage.May o
    | .stream j o => g.stream? = some i → j = i → d.MayOn i g o
  answer _ _ := True
  next d
    | .service o, a => if g.stream? = some i then { d with stage := d.stage.next o a } else d
    | .stream j o, a => if g.stream? = some i ∧ j = i then d.nextOn o a else d

/-- What holds of a goroutine that is not running. -/
def Duty.Idle (i : Nat) (g : Goroutine) (d : Duty) : Prop :=
  d.stage.Settled ∧ d.entered = false ∧ (g = .watchClose i → d.begun = true → d.cleared = true)

/-! ### The methods of a stream -/

section Follows

variable {d : Duty} {α : Type}

/-- A goroutine of another stream is free to do anything. -/
theorem cleanup_other (h : g.stream? ≠ some i) (p : Proc α) : p.Stays (cleanup i g) d := by
  refine .of_forall (fun o => ?_) p
  cases o with
  | service o => exact ⟨fun hg => absurd hg h, fun _ => if_neg h⟩
  | stream j o => exact ⟨fun hg => absurd hg h, fun _ => if_neg fun hg => h hg.1⟩

/-- A call of the service, by a goroutine with no client to remove. -/
theorem Call.proc_settled (hd : d.stage.Settled) (call : Call α) :
    call.proc.Stays (cleanup i g) d := by
  induction call with
  | ret a => exact .ret a
  | op o k ih =>
    refine .op (fun _ => ?_) (fun a => ?_) fun a _ => ih a
    · generalize d.stage = stage at hd
      cases stage with
      | free | vacant => trivial
      | owes _ | found _ _ => exact hd.elim
    · have hstage : d.stage.next o a = d.stage := by
        generalize d.stage = stage at hd
        cases stage with
        | free | vacant => rfl
        | owes _ | found _ _ => exact hd.elim
      simp only [cleanup, hstage, ite_self]

/-- A step on the stream that is not about its client. -/
def plainOn : StreamOp → Bool
  | .allow | .goBridge _ | .reply _ | .closeSendCh => true
  | _ => false

theorem perform_plainOn {o : StreamOp} (hd : d.stage.Settled) (ho : plainOn o = true) :
    (Stream.perform i o).Stays (cleanup i g) d := by
  cases o with
  | allow | goBridge _ | reply _ | closeSendCh => exact .perform (fun _ _ => hd) fun _ => ite_self _
  | _ => simp [plainOn] at ho

section Own

variable (hg : g.stream? = some i)

include hg

theorem cleanup_next_service {o : ServiceOp} {a : o.Res} :
    (cleanup i g).next d (.service o) a = { d with stage := d.stage.next o a } :=
  if_pos hg

theorem cleanup_next_stream {o : StreamOp} {a : o.Res} :
    (cleanup i g).next d (.stream i o) a = d.nextOn o a :=
  if_pos ⟨hg, rfl⟩

theorem service_follows {o : ServiceOp} {f : o.Res → Call α} {post : α → Duty → Prop}
    (hmay : d.stage.May o)
    (hf : ∀ a, (f a).proc.Follows (cleanup i g) post { d with stage := d.stage.next o a }) :
    (Call.perform o >>= f).proc.Follows (cleanup i g) post d := by
  refine ⟨fun _ => hmay, fun a _ => ?_⟩
  rw [cleanup_next_service hg]
  exact hf a

theorem stream_follows {o : StreamOp} {f : o.Res → Proc α} {post : α → Duty → Prop}
    (hmay : d.MayOn i g o) (hf : ∀ a, (f a).Follows (cleanup i g) post (d.nextOn o a)) :
    (Stream.perform i o >>= f).Follows (cleanup i g) post d := by
  refine .op (fun _ _ => hmay) fun a _ => ?_
  rw [cleanup_next_stream hg]
  exact hf a

/-- A leave as the client whose id was cleared. -/
theorem leave_follows (c reason : String) (hd : d.stage = .owes c) :
    (Call.handleAction none { clientId := c, action := some (.leave ⟨reason⟩) }).proc.Follows
      (cleanup i g) (fun _ d' => d' = { d with stage := .free }) d := by
  have hrest : ∀ call : Call Answer, call.proc.Follows (cleanup i g)
      (fun _ d' => d' = { d with stage := .free }) { d with stage := .free } := by
    intro call
    have hfree : ({ d with stage := .free } : Duty).stage.Settled := trivial
    exact Call.proc_settled hfree call
  simp only [Call.handleAction, Call.route, Call.handleLeave, Prog.bind_assoc]
  refine service_follows hg (by rw [hd]; rfl) fun room => ?_
  cases room with
  | none =>
    rw [hd]
    exact hrest _
  | some r =>
    rw [hd]
    refine service_follows hg trivial fun flags => ?_
    exact service_follows hg rfl fun _ => hrest _

/-- A cleanup clears the id and removes its client. -/
theorem leaveAndCleanup_follows {reason : String} (hmay : d.MayOn i g .clear) :
    (Stream.leaveAndCleanup i reason).Follows (cleanup i g)
      (fun _ d' => d' = { d with cleared := true, stage := .free }) d := by
  refine stream_follows hg hmay fun ids => ?_
  obtain ⟨sid, c⟩ := ids
  dsimp only
  split
  · rename_i hids
    refine .bind (.mono ?_ (leave_follows (c := c) hg reason (if_pos hids)))
    rintro _ d' rfl
    rfl
  · rename_i hids
    simp only [Duty.nextOn, if_neg hids]
    rfl

theorem endSession_follows {reason : String} (hd : d = { begun := true })
    (hne : g ≠ .watchClose i) :
    (Stream.endSession i reason).Follows (cleanup i g) (fun _ => Duty.Idle i g) d := by
  subst hd
  refine stream_follows hg ⟨rfl, rfl, trivial⟩ fun first => ?_
  split
  · rename_i hfirst
    subst hfirst
    refine .bind (.mono ?_ (leaveAndCleanup_follows hg ⟨rfl, rfl, trivial, Or.inr (Or.inr rfl)⟩))
    rintro _ d' rfl
    refine Prog.Stays.then (Call.proc_settled (by trivial) _) fun id => ?_
    refine Prog.Stays.then (.bind (perform_plainOn (by trivial) rfl) fun _ => .ret _) fun _ => ?_
    refine stream_follows hg ⟨rfl, rfl, trivial⟩ fun _ => ?_
    refine ⟨fun _ _ => ⟨rfl, rfl, trivial⟩, fun _ _ => ?_⟩
    rw [cleanup_next_stream hg]
    exact ⟨trivial, rfl, fun h => absurd h hne⟩
  · rename_i hfirst
    exact ⟨trivial, by simpa [Duty.nextOn] using hfirst, fun h => absurd h hne⟩

end Own

/-- What a goroutine that never clears the id comes to. -/
theorem idle_of_settled {d' : Duty} (hd : d'.stage.Settled) (hentered : d'.entered = false)
    (hne : g ≠ .watchClose i) : d'.Idle i g :=
  ⟨hd, hentered, fun h => absurd h hne⟩

/-- `Send` stores the id of a join only where it found none. -/
theorem send_follows (c : StreamConfig) (a : CollabAction) :
    (Stream.send c i a).Follows (cleanup i (.send i)) (fun _ => Duty.Idle i (.send i))
      { begun := true } := by
  have hg : (Goroutine.send i).stream? = some i := rfl
  have hidle : ∀ {stage : Stage}, stage.Settled →
      ({ begun := true, stage } : Duty).Idle i (.send i) :=
    fun h => idle_of_settled h rfl (by simp)
  have hreply : ∀ {stage : Stage} (e : CollabEvent), stage.Settled →
      (Stream.reply i e).Follows (cleanup i (.send i)) (fun _ => Duty.Idle i (.send i))
        { begun := true, stage } := by
    intro stage e hstage
    exact Prog.Stays.then (perform_plainOn hstage rfl) fun _ => hidle hstage
  have hrefuse : ∀ {stage : Stage} (code message : String), stage.Settled →
      (Stream.refuse i code message).Follows (cleanup i (.send i))
        (fun _ => Duty.Idle i (.send i)) { begun := true, stage } :=
    fun code message hstage =>
      Prog.Stays.then (Call.proc_settled hstage _) fun _ => hreply _ hstage
  have haction : ∀ {stage : Stage} (a : CollabAction), stage.Settled →
      (Stream.isJoin a.action = true → stage = .vacant) →
      (Stream.sendAction c i a).Follows (cleanup i (.send i)) (fun _ => Duty.Idle i (.send i))
        { begun := true, stage } := by
    intro stage a hstage hjoin
    refine Prog.Stays.then (Call.proc_settled hstage _) fun answer => ?_
    cases answer with
    | err message | nothing => exact hidle hstage
    | event e =>
      -- only a join stores an id, and it got here from a stream that had none
      have hnote : (Stream.noteJoined i (Stream.isJoin a.action) e).Follows (cleanup i (.send i))
          (fun _ d => ∃ stage : Stage, stage.Settled ∧ d = { begun := true, stage })
          { begun := true, stage } := by
        unfold Stream.noteJoined
        split
        · refine .onlyIf (fun hj => ?_) fun _ => ⟨stage, hstage, rfl⟩
          obtain rfl := hjoin hj
          refine stream_follows hg ⟨rfl, rfl⟩ fun _ => ?_
          refine Prog.Stays.then (Call.proc_settled (by trivial) _) fun found => ?_
          refine (Prog.Stays.onlyIf (perform_plainOn ?_ rfl)).mono fun _ d hd =>
            ⟨.free, trivial, hd⟩
          trivial
        · exact ⟨stage, hstage, rfl⟩
      refine .bind (hnote.mono ?_)
      rintro _ d ⟨stage, hstage, rfl⟩
      exact hreply e hstage
  have hchecked : (Stream.sendChecked c i a).Follows (cleanup i (.send i))
      (fun _ => Duty.Idle i (.send i)) { begun := true } := by
    refine stream_follows hg ⟨rfl, trivial⟩ fun joinedAs => ?_
    by_cases hid : joinedAs = ""
    · simp only [Duty.nextOn, hid, if_true]
      split
      -- the stream has no client, and only a join goes on
      · exact haction a trivial fun _ => rfl
      · exact hidle trivial
    · simp only [Duty.nextOn, hid, if_false]
      split
      -- the stream has one, and a join is refused
      · exact hrefuse _ _ trivial
      · rename_i hjoin
        exact haction _ trivial fun hj => absurd hj hjoin
  unfold Stream.send
  split
  · exact hchecked
  · split
    · exact hchecked
    · refine Prog.Stays.then (perform_plainOn (by trivial) rfl) fun allowed => ?_
      split
      · exact hchecked
      · exact hrefuse _ _ trivial

/-- Whatever a launch starts follows the discipline. -/
theorem start_follows {m : Launch} {p : Proc Unit} {s s' : Relay}
    (h : m.apply cfg s = some (s', some (g, p))) :
    p.Follows (cleanup i g) (fun _ => Duty.Idle i g) { begun := true } := by
  by_cases hg : g.stream? = some i
  · cases Launch.apply_started h with
    | send j a =>
      obtain rfl := Option.some.inj hg
      exact .bind ((send_follows _ a).mono fun _ _ h => h)
    | watchClose j =>
      obtain rfl := Option.some.inj hg
      have hstop : (Stream.perform j .stopExpiry).Stays (cleanup j (.watchClose j))
          { begun := true } := by
        refine .perform (fun _ _ => ⟨rfl, trivial⟩) fun _ => ?_
        rw [cleanup_next_stream hg]
        rfl
      refine Prog.Stays.then (.onlyIf hstop) fun _ => ?_
      refine .mono ?_ (leaveAndCleanup_follows hg ⟨rfl, rfl, trivial, Or.inl rfl⟩)
      rintro _ d rfl
      exact ⟨trivial, rfl, fun _ _ => rfl⟩
    | expire j =>
      obtain rfl := Option.some.inj hg
      exact endSession_follows hg rfl (by simp)
    | closeSend j k =>
      obtain rfl := Option.some.inj hg
      refine .bind (.mono ?_ (leaveAndCleanup_follows hg
        ⟨rfl, rfl, trivial, Or.inr (Or.inl ⟨k, rfl⟩)⟩))
      rintro _ d rfl
      refine .mono ?_ (perform_plainOn (by trivial) rfl)
      rintro _ d rfl
      exact idle_of_settled trivial rfl (by simp)
    | evict j c choice =>
      obtain rfl := Option.some.inj hg
      exact endSession_follows hg rfl (by simp)
    | direct k call => simp [Goroutine.stream?] at hg
  · have hne : g ≠ .watchClose i := by
      rintro rfl
      exact hg rfl
    refine .mono ?_ (cleanup_other hg p)
    rintro _ d rfl
    exact idle_of_settled trivial rfl hne

end Follows

/-! ### Clients that are gone, or about to be -/

/-- Client `c` is in no room of the service. -/
def Gone (c : String) (s : CollabService) : Prop :=
  ∀ sid r, s.getRoomByID sid = some r → c ∉ (s.roomAt r).clients

/-- A goroutine in this stage has client `c` to remove, from the room it is in if it is in
one. -/
def Stage.Owes (c : String) (s : CollabService) : Stage → Prop
  | .owes c' => c' = c
  | .found c' r => c' = c ∧ ∀ r', c ∈ (s.roomAt r').clients → r' = r
  | .free | .vacant => False

section Service

variable {s s' : CollabService} {n : Nat} {o : ServiceOp} {a : o.Res} {c : String}

theorem Gone.apply (hissued : Issued u s c) (h : o.apply u g n s = some (s', a)) (hc : Gone c s) :
    Gone c s' := by
  intro sid r hr
  rcases (apply_effect h).getRoomByID hr with hr | ⟨-, -, hroom⟩
  · exact (apply_effect h).grow.gone hissued (hc sid r hr)
  · simp [hroom]

theorem Stage.Owes.not_settled {stage : Stage} (h : stage.Owes c s) : ¬ stage.Settled := by
  cases stage with
  | free | vacant => exact h.elim
  | owes _ | found _ _ => exact id

/-- What another goroutine does leaves a client that is to be removed to be removed. -/
theorem Stage.Owes.apply {stage : Stage} (hissued : Issued u s c)
    (h : o.apply u g n s = some (s', a)) (hc : stage.Owes c s) : stage.Owes c s' := by
  cases stage with
  | owes c' => exact hc
  | found c' r =>
    refine ⟨hc.1, fun r' hr' => hc.2 r' ?_⟩
    by_contra hout
    exact (apply_effect h).grow.gone hissued hout hr'
  | free | vacant => exact hc.elim

/-- The goroutine that is to remove the client goes on to do so, until it is gone. -/
theorem Stage.Owes.next {stage : Stage} (hs : Housed u s) (hissued : Issued u s c)
    (hmay : stage.May o) (h : o.apply u g n s = some (s', a)) (hc : stage.Owes c s) :
    (stage.next o a).Owes c s' ∨ Gone c s' := by
  cases stage with
  | owes c' =>
    obtain rfl : c' = c := hc
    obtain rfl : o = .findRoomForClient c' := hmay
    obtain ⟨rfl, rfl⟩ := Prod.mk.inj (Option.some.inj h)
    cases hfind : s.findRoomForClient c' with
    | none =>
      refine Or.inr fun sid r hr hmem => ?_
      obtain ⟨r', hr'⟩ := findRoomForClient_isSome hr hmem
      exact absurd (hfind.symm.trans hr') (by simp)
    | some r =>
      exact Or.inl ⟨rfl, fun r' hr' => hs.unique hr' (findRoomForClient_eq_some hfind).2⟩
  | found c' r =>
    obtain ⟨rfl, honly⟩ := hc
    cases o with
    | leaverFlags r' c =>
      obtain ⟨rfl, -⟩ := Prod.mk.inj (Option.some.inj h)
      exact Or.inl ⟨rfl, honly⟩
    | removeClient r' c =>
      obtain ⟨rfl, rfl⟩ := ServiceOp.removeClient.inj (hmay : ServiceOp.removeClient r' c = _)
      refine Or.inr fun sid r hr hmem => ?_
      have hmem' : c ∈ (s.roomAt r).clients := by
        by_contra hout
        exact (apply_effect h).grow.gone hissued hout hmem
      obtain rfl := honly r hmem'
      rcases apply_clients h r with hclients | ⟨-, hnil⟩
      · rw [hclients] at hmem
        simp only [clientsAfter, if_true] at hmem
        exact (hs.nodup r).not_mem_erase hmem
      · simp [hnil] at hmem
    | _ => simp [Stage.May] at hmay
  | free | vacant => exact hc.elim

end Service

/-! ### What a stream leaves behind -/

/-- What the goroutines of stream `i` have done about its clients. -/
structure Cleaning (u : UuidSource) (i : Nat) (s : Relay) (q : Goroutine → Duty) : Prop where
  housed : Housed u s.svc
  session : (s.streams i).clientId ≠ "" → (s.streams i).sessionId ≠ ""
  vacant : (q (.send i)).stage = .vacant → (s.streams i).clientId = ""
  watched : (s.streams i).watched = true ↔ (q (.watchClose i)).begun = true
  entered : ∀ {g}, (q g).entered = true → (s.streams i).endOnce = .running ∧
    ∀ {g'}, (q g').entered = true → g' = g
  running : (s.streams i).endOnce = .running → ∃ g, (q g).entered = true
  ended : (s.streams i).ended = true → (s.streams i).endOnce ≠ .idle ∧
    ∀ {g}, (q g).entered = true → (q g).cleared = true ∧ (q g).stage.Settled
  owing : ∀ {g}, ¬ (q g).stage.Settled → g.stream? = some i ∧
    (g = .watchClose i ∨ (∃ k, g = .closeSend i k) ∨ (q g).entered = true)
  kept : ∀ {c}, (s.streams i).Has c →
    c = (s.streams i).clientId ∨ Gone c s.svc ∨ ∃ g, (q g).stage.Owes c s.svc

theorem Stage.next_of_settled {stage : Stage} {o : ServiceOp} {a : o.Res} (h : stage.Settled) :
    stage.next o a = stage := by
  cases stage with
  | free | vacant => rfl
  | owes _ | found _ _ => exact h.elim

theorem Stage.vacant_of_next {stage : Stage} {o : ServiceOp} {a : o.Res} (hmay : stage.May o)
    (h : stage.next o a = .vacant) : stage = .vacant := by
  cases stage with
  | free | vacant => exact h
  | owes c =>
    obtain rfl : o = .findRoomForClient c := hmay
    cases (a : Option RoomRef) <;> simp [Stage.next] at h
  | found c r => cases o <;> simp [Stage.next] at h

/-- The rooms are as they were, and so is what stream `i` knows; the goroutines are where
they were, or idle ones were started. -/
theorem Cleaning.congr {s s' : Relay} {q q' : Goroutine → Duty} (hs : Cleaning u i s q)
    (hhoused : Housed u s'.svc) (hroomAt : s'.svc.roomAt = s.svc.roomAt)
    (hrooms : s'.svc.rooms = s.svc.rooms)
    (hanswered : (s'.streams i).answered = (s.streams i).answered)
    (hclientId : (s'.streams i).clientId = (s.streams i).clientId)
    (hsessionId : (s'.streams i).sessionId = (s.streams i).sessionId)
    (honce : (s'.streams i).endOnce = (s.streams i).endOnce)
    (hended : (s'.streams i).ended = (s.streams i).ended)
    (hq : ∀ g, q' g = q g ∨ (q g).Idle i g ∧ q' g = { begun := true })
    (hwatched : (s'.streams i).watched = true ↔ (q' (.watchClose i)).begun = true) :
    Cleaning u i s' q' := by
  -- a goroutine that ends the session, or has a client to remove, is not a new one
  have hentered : ∀ {g}, (q' g).entered = true → q' g = q g := by
    intro g h
    rcases hq g with heq | ⟨-, heq⟩
    · exact heq
    · simp [heq] at h
  have hentered' : ∀ {g}, (q g).entered = true → q' g = q g := by
    intro g h
    rcases hq g with heq | ⟨⟨-, hidle, -⟩, -⟩
    · exact heq
    · simp [hidle] at h
  have hstage : ∀ {g}, (q' g).stage ≠ .free → q' g = q g := by
    intro g h
    rcases hq g with heq | ⟨-, heq⟩
    · exact heq
    · exact absurd (by rw [heq]) h
  have hstage' : ∀ {g}, ¬ (q g).stage.Settled → q' g = q g := by
    intro g h
    rcases hq g with heq | ⟨⟨hidle, -⟩, -⟩
    · exact heq
    · exact absurd hidle h
  refine ⟨hhoused, ?_, fun h => ?_, hwatched, fun {g} h => ?_, fun h => ?_, fun h => ?_,
    fun {g} h => ?_, fun {c} hc => ?_⟩
  · rw [hclientId, hsessionId]
    exact hs.session
  · rw [hstage (by simp [h])] at h
    rw [hclientId]
    exact hs.vacant h
  · have hg := hentered h ▸ h
    rw [honce]
    exact ⟨(hs.entered hg).1, fun h' => (hs.entered hg).2 (hentered h' ▸ h')⟩
  · rw [honce] at h
    obtain ⟨g, hg⟩ := hs.running h
    exact ⟨g, (hentered' hg).symm ▸ hg⟩
  · rw [hended] at h
    rw [honce]
    refine ⟨(hs.ended h).1, fun {g} h' => ?_⟩
    rw [hentered h']
    exact (hs.ended h).2 (hentered h' ▸ h')
  · have hg : q' g = q g := hstage fun hfree => h (hfree ▸ trivial)
    rw [hg]
    exact hs.owing (hg ▸ h)
  · rw [Stream.has_congr hanswered] at hc
    rw [hclientId]
    rcases hs.kept hc with h | h | ⟨g, h⟩
    · exact Or.inl h
    · refine Or.inr (Or.inl fun sid r hr => ?_)
      rw [hroomAt]
      exact h sid r (by rwa [getRoomByID, ← hrooms])
    · refine Or.inr (Or.inr ⟨g, ?_⟩)
      rw [hstage' fun hsettled => h.not_settled hsettled]
      generalize (q g).stage = stage at h
      cases stage with
      | owes c' => exact h
      | found c' r => exact ⟨h.1, fun r' hr' => h.2 r' (hroomAt ▸ hr')⟩
      | free | vacant => exact h

section Step

variable {s s' : Relay} {q : Goroutine → Duty} {n : Nat}

theorem Cleaning.service {o : ServiceOp} {a : o.Res} (hs : Cleaning u i s q)
    (hissued : ∀ {c}, (s.streams i).Has c → Issued u s.svc c)
    (hmay : (cleanup i g).may (q g) (.service o))
    (hx : (Op.service o).exec u g n s = some (s', a)) :
    Cleaning u i s' (Function.update q g ((cleanup i g).next (q g) (.service o) a)) := by
  obtain ⟨-, happly, heq⟩ := Op.exec_service hx
  have hstreams : s'.streams = s.streams := by rw [heq]
  have hothers : ∀ {c}, (s.streams i).Has c → ∀ {stage : Stage}, stage.Owes c s.svc →
      stage.Owes c s'.svc := fun hc _ howes => howes.apply (hissued hc) happly
  by_cases hg : g.stream? = some i
  · rw [cleanup_next_service hg]
    have hmay : (q g).stage.May o := hmay hg
    -- only the stage of `g` is new
    generalize hq' : Function.update q g { q g with stage := (q g).stage.next o a } = q'
    have hself : q' g = { q g with stage := (q g).stage.next o a } := by
      rw [← hq', Function.update_self]
    have hother : ∀ {g'}, g' ≠ g → q' g' = q g' := by
      intro g' hg'
      rw [← hq', Function.update_of_ne hg']
    have hflags : ∀ g', (q' g').entered = (q g').entered ∧ (q' g').cleared = (q g').cleared ∧
        (q' g').begun = (q g').begun := by
      intro g'
      by_cases hg' : g' = g
      · subst hg'
        rw [hself]
        exact ⟨rfl, rfl, rfl⟩
      · rw [hother hg']
        exact ⟨rfl, rfl, rfl⟩
    have hsettled : ∀ {g'}, (q g').stage.Settled → (q' g').stage = (q g').stage := by
      intro g' h
      by_cases hg' : g' = g
      · subst hg'
        rw [hself]
        exact Stage.next_of_settled h
      · rw [hother hg']
    refine ⟨hs.housed.apply happly, ?_, ?_, ?_, ?_, ?_, ?_, ?_, ?_⟩
    · rw [hstreams]
      exact hs.session
    · intro h
      rw [hstreams]
      refine hs.vacant ?_
      by_cases hg' : Goroutine.send i = g
      · subst hg'
        rw [hself] at h
        exact Stage.vacant_of_next hmay h
      · rwa [hother hg'] at h
    · rw [hstreams, (hflags _).2.2]
      exact hs.watched
    · intro g' h
      rw [(hflags g').1] at h
      rw [hstreams]
      refine ⟨(hs.entered h).1, fun {g''} h'' => ?_⟩
      rw [(hflags g'').1] at h''
      exact (hs.entered h).2 h''
    · rw [hstreams]
      intro h
      obtain ⟨g', h'⟩ := hs.running h
      exact ⟨g', (hflags g').1.trans h'⟩
    · rw [hstreams]
      refine fun h => ⟨(hs.ended h).1, fun {g'} h' => ?_⟩
      rw [(hflags g').1] at h'
      obtain ⟨hcleared, hstage⟩ := (hs.ended h).2 h'
      rw [(hflags g').2.1, hsettled hstage]
      exact ⟨hcleared, hstage⟩
    · intro g' h
      rw [(hflags g').1]
      refine hs.owing fun hstage => h ?_
      rw [hsettled hstage]
      exact hstage
    · rw [hstreams]
      intro c hc
      rcases hs.kept hc with h | h | ⟨g', h⟩
      · exact Or.inl h
      · exact Or.inr (Or.inl (h.apply (hissued hc) happly))
      · by_cases hg' : g' = g
        · subst hg'
          rcases h.next hs.housed (hissued hc) hmay happly with h | h
          · exact Or.inr (Or.inr ⟨g', by rw [hself]; exact h⟩)
          · exact Or.inr (Or.inl h)
        · exact Or.inr (Or.inr ⟨g', by rw [hother hg']; exact hothers hc h⟩)
  · have hsame : (cleanup i g).next (q g) (.service o) a = q g := if_neg hg
    rw [hsame, Function.update_eq_self]
    refine ⟨hs.housed.apply happly, ?_, ?_, ?_, ?_, ?_, ?_, hs.owing, ?_⟩ <;> rw [hstreams]
    · exact hs.session
    · exact hs.vacant
    · exact hs.watched
    · exact hs.entered
    · exact hs.running
    · exact hs.ended
    · intro c hc
      rcases hs.kept hc with h | h | ⟨g', h⟩
      · exact Or.inl h
      · exact Or.inr (Or.inl (h.apply (hissued hc) happly))
      · exact Or.inr (Or.inr ⟨g', hothers hc h⟩)

/-- Nothing that is owed is forgotten where a goroutine owed nothing, or still does. -/
theorem owes_update {svc : CollabService} {d' : Duty} {c : String}
    (hd : (q g).stage.Settled ∨ d'.stage = (q g).stage)
    (h : ∃ g', (q g').stage.Owes c svc) : ∃ g', (Function.update q g d' g').stage.Owes c svc := by
  obtain ⟨g', h⟩ := h
  refine ⟨g', ?_⟩
  by_cases hg : g' = g
  · subst hg
    rw [Function.update_self]
    rcases hd with hd | hd
    · exact absurd hd h.not_settled
    · rwa [hd]
  · rwa [Function.update_of_ne hg]

/-- A goroutine comes to another stage, and leaves the end of the stream alone. -/
theorem Cleaning.restage {d' : Duty} (hs : Cleaning u i s q) (hsvc : s'.svc = s.svc)
    (hbegun : d'.begun = (q g).begun) (hentered : d'.entered = (q g).entered)
    (hcleared : (q g).cleared = true → d'.cleared = true ∧ d'.stage.Settled)
    (hsettled : (q g).stage.Settled)
    (howing : ¬ d'.stage.Settled → g.stream? = some i ∧
      (g = .watchClose i ∨ (∃ k, g = .closeSend i k) ∨ d'.entered = true))
    (hsession : (s'.streams i).clientId ≠ "" → (s'.streams i).sessionId ≠ "")
    (hvacant : (Function.update q g d' (.send i)).stage = .vacant → (s'.streams i).clientId = "")
    (honce : (s'.streams i).endOnce = (s.streams i).endOnce)
    (hended : (s'.streams i).ended = (s.streams i).ended)
    (hwatched : (s'.streams i).watched = (s.streams i).watched)
    (hkept : ∀ {c}, (s'.streams i).Has c → c = (s'.streams i).clientId ∨ Gone c s.svc ∨
      d'.stage.Owes c s.svc ∨ ∃ g', (q g').stage.Owes c s.svc) :
    Cleaning u i s' (Function.update q g d') := by
  have hflags : ∀ g', (Function.update q g d' g').entered = (q g').entered ∧
      (Function.update q g d' g').begun = (q g').begun := by
    intro g'
    by_cases hg : g' = g
    · subst hg
      rw [Function.update_self]
      exact ⟨hentered, hbegun⟩
    · rw [Function.update_of_ne hg]
      exact ⟨rfl, rfl⟩
  refine ⟨hsvc ▸ hs.housed, hsession, hvacant, ?_, ?_, ?_, ?_, ?_, ?_⟩
  · rw [hwatched, (hflags _).2]
    exact hs.watched
  · intro g' h
    rw [(hflags g').1] at h
    rw [honce]
    refine ⟨(hs.entered h).1, fun {g''} h'' => ?_⟩
    rw [(hflags g'').1] at h''
    exact (hs.entered h).2 h''
  · rw [honce]
    intro h
    obtain ⟨g', h'⟩ := hs.running h
    exact ⟨g', (hflags g').1.trans h'⟩
  · rw [hended, honce]
    refine fun h => ⟨(hs.ended h).1, fun {g'} h' => ?_⟩
    rw [(hflags g').1] at h'
    by_cases hg : g' = g
    · subst hg
      rw [Function.update_self]
      exact hcleared ((hs.ended h).2 h').1
    · rw [Function.update_of_ne hg]
      exact (hs.ended h).2 h'
  · intro g' h
    by_cases hg : g' = g
    · subst hg
      rw [Function.update_self] at h ⊢
      exact howing h
    · rw [Function.update_of_ne hg] at h ⊢
      exact hs.owing h
  · intro c hc
    rw [hsvc]
    rcases hkept hc with h | h | h | h
    · exact Or.inl h
    · exact Or.inr (Or.inl h)
    · exact Or.inr (Or.inr ⟨g, by rwa [Function.update_self]⟩)
    · exact Or.inr (Or.inr (owes_update (Or.inl hsettled) h))

/-- Coming to end the session, or being done with it, is no new stage. -/
theorem update_entered (q : Goroutine → Duty) (g : Goroutine) (entered : Bool) (g' : Goroutine) :
    (Function.update q g { q g with entered } g').stage = (q g').stage ∧
      (Function.update q g { q g with entered } g').begun = (q g').begun := by
  by_cases hg : g' = g
  · subst hg
    rw [Function.update_self]
    exact ⟨rfl, rfl⟩
  · rw [Function.update_of_ne hg]
    exact ⟨rfl, rfl⟩

/-- A goroutine comes to be the one that ends the session. -/
theorem Cleaning.enter (hs : Cleaning u i s q) (honce : (s.streams i).endOnce = .idle) :
    Cleaning u i (s.modifyStream i fun st => { st with endOnce := .running })
      (Function.update q g { q g with entered := true }) := by
  -- the once is idle, so nobody is inside it
  have hnone : ∀ {g'}, (q g').entered ≠ true := by
    intro g' h
    simp [(hs.entered h).1] at honce
  have hnew : ∀ {g'}, (Function.update q g { q g with entered := true } g').entered = true →
      g' = g := by
    intro g' h
    by_contra hg
    rw [Function.update_of_ne hg] at h
    exact hnone h
  have hstage := update_entered q g true
  refine ⟨hs.housed, ?_, ?_, ?_, ?_, ?_, ?_, ?_, ?_⟩
  · rw [Relay.modifyStream_self]
    exact hs.session
  · rw [Relay.modifyStream_self, (hstage _).1]
    exact hs.vacant
  · rw [Relay.modifyStream_self, (hstage _).2]
    exact hs.watched
  · rw [Relay.modifyStream_self]
    intro g' h
    refine ⟨rfl, fun h' => ?_⟩
    rw [hnew h, hnew h']
  · rw [Relay.modifyStream_self]
    exact fun _ => ⟨g, by rw [Function.update_self]⟩
  · rw [Relay.modifyStream_self]
    exact fun h => absurd honce (hs.ended h).1
  · intro g' h
    rw [(hstage g').1] at h
    obtain ⟨hg, hkind⟩ := hs.owing h
    refine ⟨hg, ?_⟩
    rcases hkind with hkind | hkind | hkind
    · exact Or.inl hkind
    · exact Or.inr (Or.inl hkind)
    · exact absurd hkind hnone
  · rw [Relay.modifyStream_self]
    intro c hc
    rcases hs.kept hc with h | h | ⟨g', h⟩
    · exact Or.inl h
    · exact Or.inr (Or.inl h)
    · exact Or.inr (Or.inr ⟨g', (hstage g').1.symm ▸ h⟩)

/-- It is done with it. -/
theorem Cleaning.exit (hs : Cleaning u i s q) (hentered : (q g).entered = true)
    (hsettled : (q g).stage.Settled) :
    Cleaning u i (s.modifyStream i fun st => { st with endOnce := .done })
      (Function.update q g { q g with entered := false }) := by
  have hnone : ∀ {g'}, (Function.update q g { q g with entered := false } g').entered ≠ true := by
    intro g' h
    by_cases hg : g' = g
    · subst hg
      rw [Function.update_self] at h
      simp at h
    · rw [Function.update_of_ne hg] at h
      exact hg ((hs.entered hentered).2 h)
  have hstage := update_entered q g false
  refine ⟨hs.housed, ?_, ?_, ?_, ?_, ?_, ?_, ?_, ?_⟩
  · rw [Relay.modifyStream_self]
    exact hs.session
  · rw [Relay.modifyStream_self, (hstage _).1]
    exact hs.vacant
  · rw [Relay.modifyStream_self, (hstage _).2]
    exact hs.watched
  · exact fun h => absurd h hnone
  · rw [Relay.modifyStream_self]
    exact fun h => by simp at h
  · rw [Relay.modifyStream_self]
    exact fun _ => ⟨by simp, fun h => absurd h hnone⟩
  · intro g' h
    rw [(hstage g').1] at h
    have hg : g' ≠ g := by
      rintro rfl
      exact h hsettled
    rw [Function.update_of_ne hg]
    exact hs.owing h
  · rw [Relay.modifyStream_self]
    intro c hc
    rcases hs.kept hc with h | h | ⟨g', h⟩
    · exact Or.inl h
    · exact Or.inr (Or.inl h)
    · exact Or.inr (Or.inr ⟨g', (hstage g').1.symm ▸ h⟩)

/-- A step on stream `i`, of a goroutine of it. -/
theorem Cleaning.stream {o : StreamOp} {a : o.Res} (hs : Cleaning u i s q)
    (hg : g.stream? = some i) (hnamed : ∀ {c}, (s.streams i).Has c → c ≠ "")
    (hreq : Relay.StreamRequires u g i s o) (hmay : (q g).MayOn i g o)
    (hx : o.apply i n s = some (s', a)) :
    Cleaning u i s' (Function.update q g ((q g).nextOn o a)) := by
  have heffect := StreamOp.apply_effect hx
  have hhoused : Housed u s'.svc := heffect.svc ▸ hs.housed
  cases o with
  | allow | goBridge _ | reply _ | closeSendCh | stopExpiry =>
    have hanswered := heffect.answered
    simp only [StreamOp.answers, List.append_nil] at hanswered
    simp only [Duty.nextOn, Function.update_eq_self]
    refine hs.congr hhoused (by rw [heffect.svc]) (by rw [heffect.svc]) hanswered heffect.clientId
      heffect.sessionId heffect.endOnce heffect.ended (fun _ => Or.inl rfl) ?_
    rw [heffect.watched]
    exact hs.watched
  | readClientId =>
    obtain ⟨rfl, rfl⟩ := Prod.mk.inj (Option.some.inj hx)
    obtain ⟨rfl, hsettled⟩ := hmay
    have hfree : ((q (.send i)).nextOn .readClientId (s.streams i).clientId).stage.Settled := by
      simp only [Duty.nextOn]
      split <;> trivial
    refine hs.restage rfl rfl rfl (fun h => ⟨h, hfree⟩) hsettled
      (fun h => absurd hfree h) hs.session
      ?_ rfl rfl rfl fun hc => ?_
    · rw [Function.update_self]
      intro h
      by_contra hne
      simp [Duty.nextOn, hne] at h
    · rcases hs.kept hc with h | h | h
      · exact Or.inl h
      · exact Or.inr (Or.inl h)
      · exact Or.inr (Or.inr (Or.inr h))
  | store rj =>
    obtain ⟨rfl, hvacant⟩ := hmay
    -- the id was empty, so it stood for no client of the stream
    have hempty := hs.vacant hvacant
    have hclientId : (s'.streams i).clientId = rj.clientId := heffect.clientId
    have hsessionId : (s'.streams i).sessionId = rj.room.sessionId := heffect.sessionId
    refine hs.restage heffect.svc rfl rfl (fun h => ⟨h, trivial⟩) ?_
      (fun h => absurd trivial h) ?_ ?_
      heffect.endOnce heffect.ended heffect.watched ?_
    · rw [hvacant]
      trivial
    · rw [hsessionId]
      exact fun _ => hreq.2.1.nonempty
    · rw [Function.update_self]
      simp [Duty.nextOn]
    · intro c hc
      obtain ⟨rj', hrj', rfl⟩ := hc
      rw [heffect.answered] at hrj'
      rcases List.mem_append.mp hrj' with hrj' | hrj'
      · rcases hs.kept ⟨rj', hrj', rfl⟩ with h | h | h
        · exact absurd (h.trans hempty) (hnamed ⟨rj', hrj', rfl⟩)
        · exact Or.inr (Or.inl h)
        · exact Or.inr (Or.inr (Or.inr h))
      · obtain rfl := List.mem_singleton.mp hrj'
        exact Or.inl hclientId.symm
  | onceEnter =>
    simp only [StreamOp.apply] at hx
    split at hx
    · rename_i honce
      obtain ⟨rfl, rfl⟩ := Prod.mk.inj (Option.some.inj hx)
      exact hs.enter honce
    · simp at hx
    · obtain ⟨rfl, rfl⟩ := Prod.mk.inj (Option.some.inj hx)
      have hsame : (q g).nextOn .onceEnter false = q g := by
        simp only [Duty.nextOn, ← hmay.1]
      rw [hsame, Function.update_eq_self]
      exact hs
  | onceExit =>
    obtain ⟨rfl, rfl⟩ := Prod.mk.inj (Option.some.inj hx)
    exact hs.exit hmay.1 hmay.2.2
  | closeEnded =>
    obtain ⟨rfl, rfl⟩ := Prod.mk.inj (Option.some.inj hx)
    obtain ⟨hentered, hdone⟩ := hmay
    simp only [Duty.nextOn, Function.update_eq_self]
    refine ⟨hs.housed, ?_, ?_, ?_, ?_, ?_, ?_, hs.owing, ?_⟩ <;> rw [Relay.modifyStream_self]
    · exact hs.session
    · exact hs.vacant
    · exact hs.watched
    · exact hs.entered
    · exact hs.running
    · refine fun _ => ⟨?_, fun h => ?_⟩
      · simp [(hs.entered hentered).1]
      · rwa [(hs.entered hentered).2 h]
    · exact hs.kept
  | clear =>
    obtain ⟨-, hcleared, hsettled, hkind⟩ := hmay
    obtain ⟨rfl, rfl⟩ := Prod.mk.inj (Option.some.inj hx)
    refine hs.restage rfl rfl rfl ?_ hsettled (fun _ => ⟨hg, hkind⟩) ?_ ?_ ?_ ?_ ?_ ?_
    · simp [hcleared]
    · rw [Relay.modifyStream_self]
      exact fun h => absurd rfl h
    · rw [Relay.modifyStream_self]
      exact fun _ => rfl
    · rw [Relay.modifyStream_self]
    · rw [Relay.modifyStream_self]
    · rw [Relay.modifyStream_self]
    · rw [Relay.modifyStream_self]
      intro c hc
      rcases hs.kept hc with rfl | h | h
      -- whoever cleared the id now has its client to remove
      · have hne := hnamed hc
        refine Or.inr (Or.inr (Or.inl ?_))
        simp only [Duty.nextOn]
        rw [if_pos ⟨hs.session hne, hne⟩]
        rfl
      · exact Or.inr (Or.inl h)
      · exact Or.inr (Or.inr (Or.inr h))

/-- A step on another stream. -/
theorem Cleaning.otherStream {j : Nat} {o : StreamOp} {a : o.Res} (hs : Cleaning u i s q)
    (hj : i ≠ j) (hx : o.apply j n s = some (s', a)) : Cleaning u i s' q := by
  have heffect := StreamOp.apply_effect hx
  have hsame := heffect.other hj
  refine hs.congr (heffect.svc ▸ hs.housed) ?_ ?_ ?_ ?_ ?_ ?_ ?_ (fun _ => Or.inl rfl) ?_
  · rw [heffect.svc]
  · rw [heffect.svc]
  all_goals rw [hsame]
  exact hs.watched

/-- A launch, with the goroutine that it starts. -/
theorem Cleaning.launch {m : Launch} {start : Option (Goroutine × Proc Unit)}
    {q' : Goroutine → Duty} (hs : Cleaning u i s q) (h : m.apply cfg s = some (s', start))
    (hq : ∀ g, q' g = q g ∨ (q g).Idle i g ∧ q' g = { begun := true })
    (hstart : (q' (.watchClose i)).begun = true ↔
      (q (.watchClose i)).begun = true ∨ ∃ p, start = some (.watchClose i, p)) :
    Cleaning u i s' q' := by
  have hkept := Launch.apply_joinsKept h
  have hwatched : (s'.streams i).watched = true ↔ (q' (.watchClose i)).begun = true := by
    rw [Launch.apply_watched h, hstart, hs.watched]
  have hsvc : Housed u s'.svc ∧ s'.svc.roomAt = s.svc.roomAt := by
    rcases Launch.apply_svc h with heq | ⟨c, e, htake⟩
    · rw [heq]
      exact ⟨hs.housed, rfl⟩
    · exact ⟨hs.housed.take? htake, take?_roomAt htake⟩
  exact hs.congr hsvc.1 hsvc.2 (Launch.apply_rooms h) (hkept.answered i) (hkept.clientId i)
    (hkept.sessionId i) (hkept.endOnce i) (hkept.ended i) hq hwatched

end Step

/-! ### Every move -/

/-- A move that is not a step on stream `i`: it leaves the client and the end of the stream
alone, and nobody clears the id, comes to end the session or to have a client to remove. -/
structure CleanupKept (i : Nat) (s : Relay) (q : Goroutine → Duty) (s' : Relay)
    (q' : Goroutine → Duty) : Prop where
  clientId : (s'.streams i).clientId = (s.streams i).clientId
  endOnce : (s'.streams i).endOnce = (s.streams i).endOnce
  ended : (s'.streams i).ended = (s.streams i).ended
  watched : (s.streams i).watched = true → (s'.streams i).watched = true
  entered : ∀ {g}, (q' g).entered = true → (q g).entered = true
  cleared : ∀ {g}, (q' g).cleared = true → (q g).cleared = true
  settled : ∀ {g}, (q g).stage.Settled → (q' g).stage.Settled

/-- A step on stream `i`, of a goroutine of it that may make it. -/
structure CleanupOwn (i : Nat) (t : System) (q : Goroutine → Duty) (m : Move) (s' : Relay)
    (q' : Goroutine → Duty) (g : Goroutine) (n : Nat) (o : StreamOp) (a : o.Res) : Prop where
  move : m = .run g n
  next : ∃ k, t.threads g = some (.op (.stream i o) k)
  may : (q g).MayOn i g o
  apply : o.apply i n t.shared = some (s', a)
  duty : q' = Function.update q g ((q g).nextOn o a)

theorem Cleaning.move {t t' : System} {m : Move} {q : Goroutine → Duty}
    (hmembers : Holds (Op.exec u) (Relay.membership u cfg) t)
    (hq : Disciplined (cleanup i) (Duty.Idle i) t q) (hs : Cleaning u i t.shared q)
    (h : System.step u cfg t m = some t') :
    ∃ q', Disciplined (cleanup i) (Duty.Idle i) t' q' ∧ Cleaning u i t'.shared q' ∧
      (CleanupKept i t.shared q t'.shared q' ∨
        ∃ g n o a, CleanupOwn i t q m t'.shared q' g n o a) := by
  have hissued : ∀ {c}, (t.shared.streams i).Has c → Issued u t.shared.svc c := by
    rintro c ⟨rj, hrj, rfl⟩
    exact (hmembers.inv.answered hrj).issued
  have hnamed : ∀ {c}, (t.shared.streams i).Has c → c ≠ "" := by
    intro c hc
    obtain ⟨k, -, rfl⟩ := hissued hc
    exact u.new_ne_empty k
  rcases hq.step h with ⟨g, n, o, k, s, a, rfl, hg, hx, hmay, rfl, hfollows⟩ |
    ⟨m', s, rfl, hl, rfl, hfollows⟩ | ⟨m', s, g, p, rfl, hl, -, hidle, rfl, hfollows⟩
  · refine ⟨_, hfollows trivial, ?_⟩
    cases o with
    | service o =>
      refine ⟨hs.service hissued hmay hx, Or.inl ?_⟩
      obtain ⟨-, -, heq⟩ := Op.exec_service hx
      dsimp only
      -- a step of the service changes at most the stage of its own goroutine
      have hnext : ∀ g',
          (Function.update q g ((cleanup i g).next (q g) (.service o) a) g').entered =
          (q g').entered ∧
          (Function.update q g ((cleanup i g).next (q g) (.service o) a) g').cleared =
            (q g').cleared ∧
          ((q g').stage.Settled → (Function.update q g ((cleanup i g).next (q g) (.service o) a)
            g').stage = (q g').stage) := by
        intro g'
        by_cases hgg : g' = g
        · subst hgg
          rw [Function.update_self]
          by_cases hstream : g'.stream? = some i
          · rw [cleanup_next_service hstream]
            exact ⟨rfl, rfl, Stage.next_of_settled⟩
          · have hsame : (cleanup i g').next (q g') (.service o) a = q g' := if_neg hstream
            rw [hsame]
            exact ⟨rfl, rfl, fun _ => rfl⟩
        · rw [Function.update_of_ne hgg]
          exact ⟨rfl, rfl, fun _ => rfl⟩
      refine ⟨?_, ?_, ?_, ?_, fun {g'} h => (hnext g').1 ▸ h, fun {g'} h => (hnext g').2.1 ▸ h,
        fun {g'} h => ((hnext g').2.2 h).symm ▸ h⟩ <;> rw [heq]
      exact id
    | stream j o =>
      have happly := (Op.exec_stream hx).2
      have hreq := hmembers.req Relay.membership_sound hg
      by_cases hj : i = j
      · subst hj
        have hmay : (q g).MayOn i g o := hmay hreq.1 rfl
        rw [cleanup_next_stream hreq.1]
        exact ⟨hs.stream hreq.1 hnamed hreq.2 hmay happly,
          Or.inr ⟨g, n, o, a, rfl, ⟨k, hg⟩, hmay, happly, rfl⟩⟩
      · have hsame : (cleanup i g).next (q g) (.stream j o) a = q g :=
          if_neg fun h => hj h.2.symm
        have hstream := (StreamOp.apply_effect happly).other hj
        rw [hsame, Function.update_eq_self]
        refine ⟨hs.otherStream hj happly, Or.inl ⟨?_, ?_, ?_, ?_, id, id, id⟩⟩ <;> rw [hstream]
        exact id
  · have happly := (Launch.launch_eq_some hl).2
    have hkept := Launch.apply_joinsKept happly
    have hclean : Cleaning u i s q := hs.launch happly (fun _ => Or.inl rfl) (by simp)
    refine ⟨q, hfollows, hclean, Or.inl ⟨hkept.clientId i, hkept.endOnce i, hkept.ended i, ?_, id,
      id, id⟩⟩
    exact fun h => (Launch.apply_watched happly).mpr (Or.inl h)
  · have happly := (Launch.launch_eq_some hl).2
    have hkept := Launch.apply_joinsKept happly
    -- the goroutine that starts was idle, and begins with nothing to remove
    have hstart : ∀ g', Function.update q g { begun := true } g' = q g' ∨
        (q g').Idle i g' ∧ Function.update q g { begun := true } g' = { begun := true } := by
      intro g'
      by_cases hgg : g' = g
      · subst hgg
        exact Or.inr ⟨hidle, Function.update_self ..⟩
      · exact Or.inl (Function.update_of_ne hgg _ _)
    refine ⟨_, hfollows { begun := true } (start_follows happly), ?_, Or.inl ⟨hkept.clientId i,
      hkept.endOnce i, hkept.ended i, ?_, ?_, ?_, ?_⟩⟩
    · refine hs.launch happly hstart ?_
      by_cases hgg : Goroutine.watchClose i = g
      · subst hgg
        simp
      · simp [Function.update_of_ne hgg, Ne.symm hgg]
    · exact fun h => (Launch.apply_watched happly).mpr (Or.inl h)
    all_goals
      intro g' h
      rcases hstart g' with heq | ⟨-, heq⟩
    · exact heq ▸ h
    · simp [heq] at h
    · exact heq ▸ h
    · simp [heq] at h
    · exact heq.symm ▸ h
    · rw [heq]
      trivial

/-! ### Nothing is stored after the last cleanup -/

theorem CleanupOwn.ok {ok : System → StreamOp → Prop} {t : System} {q q' : Goroutine → Duty}
    {m : Move} {s' : Relay} {n : Nat} {o : StreamOp} {a : o.Res}
    (h : CleanupOwn i t q m s' q' g n o a) (hm : StreamGuard i ok t m) : ok t o := by
  obtain ⟨k, hk⟩ := h.next
  have hnext : t.next? g = some (.stream i o) := by
    rw [System.next?, hk]
    rfl
  rw [h.move] at hm
  simpa [StreamGuard, hnext] using hm

/-- What a goroutine does next is what it may. -/
theorem may_of_next {t : System} {q : Goroutine → Duty} {o : StreamOp}
    (hq : Disciplined (cleanup i) (Duty.Idle i) t q) (hg : g.stream? = some i)
    (h : t.next? g = some (.stream i o)) : (q g).MayOn i g o := by
  obtain ⟨p, hp, hnext⟩ := Option.bind_eq_some_iff.mp h
  cases p with
  | ret a => simp [Prog.next?] at hnext
  | op o' k =>
    obtain rfl := Option.some.inj hnext
    exact hq.may hp hg rfl

/-- `watchClose` has still to clear the id of stream `i`. -/
def AwaitsClose (i : Nat) (t : System) : Bool :=
  !(t.shared.streams i).watched ||
    match t.next? (.watchClose i) with
    | some (.stream j .clear) | some (.stream j .stopExpiry) => j = i
    | _ => false

/-- A join stores its id only where `watchClose` has still to clear it. -/
def StoresBeforeClose (i : Nat) : System → Move → Prop :=
  StreamGuard i fun t o =>
    match o with
    | .store _ => AwaitsClose i t = true
    | _ => True

instance (i : Nat) (t : System) (m : Move) : Decidable (StoresBeforeClose i t m) := by
  unfold StoresBeforeClose
  have : ∀ (t : System) (o : StreamOp), Decidable (match o with
      | .store _ => AwaitsClose i t = true
      | _ => True) := by
    intro t o
    split <;> infer_instance
  infer_instance

/-- Once `watchClose` has cleared the id, none is stored. -/
def ClosedVacant (i : Nat) (s : Relay) (q : Goroutine → Duty) : Prop :=
  (q (.watchClose i)).cleared = true →
    (s.streams i).watched = true ∧ (s.streams i).clientId = ""

/-- Only clearing the id makes a goroutine one that did. -/
theorem Duty.nextOn_cleared {d : Duty} {o : StreamOp} {a : o.Res} (ho : o ≠ .clear) :
    (d.nextOn o a).cleared = d.cleared := by
  cases o with
  | clear => exact absurd rfl ho
  | _ => rfl

theorem ClosedVacant.step {t : System} {m : Move} {q q' : Goroutine → Duty} {s' : Relay}
    (hq : Disciplined (cleanup i) (Duty.Idle i) t q) (hs : Cleaning u i t.shared q)
    (hvacant : ClosedVacant i t.shared q) (hm : StoresBeforeClose i t m)
    (h : CleanupKept i t.shared q s' q' ∨ ∃ g n o a, CleanupOwn i t q m s' q' g n o a) :
    ClosedVacant i s' q' := by
  intro hcleared
  rcases h with h | ⟨g, n, o, a, h⟩
  · obtain ⟨hwatched, hclientId⟩ := hvacant (h.cleared hcleared)
    exact ⟨h.watched hwatched, h.clientId.trans hclientId⟩
  · have heffect := StreamOp.apply_effect h.apply
    have hok := h.ok hm
    have hmay := h.may
    rw [h.duty] at hcleared
    rw [heffect.watched, heffect.clientId]
    by_cases ho : o = .clear
    · subst ho
      refine ⟨?_, rfl⟩
      by_cases hg : Goroutine.watchClose i = g
      · subst hg
        exact hs.watched.mpr hmay.1
      · rw [Function.update_of_ne hg] at hcleared
        exact (hvacant hcleared).1
    · have hold : (q (.watchClose i)).cleared = true := by
        by_cases hg : Goroutine.watchClose i = g
        · subst hg
          rwa [Function.update_self, Duty.nextOn_cleared ho] at hcleared
        · rwa [Function.update_of_ne hg] at hcleared
      refine ⟨(hvacant hold).1, ?_⟩
      cases o with
      | store rj =>
        -- the id would be stored after `watchClose` cleared it
        have hawaits : AwaitsClose i t = true := hok
        simp only [AwaitsClose, (hvacant hold).1, Bool.not_true, Bool.false_or] at hawaits
        split at hawaits
        · rename_i j hnext
          obtain rfl := of_decide_eq_true hawaits
          simp [(may_of_next hq rfl hnext).2.1] at hold
        · rename_i j hnext
          obtain rfl := of_decide_eq_true hawaits
          simp [(may_of_next hq rfl hnext).1] at hold
        · simp at hawaits
      | clear => exact absurd rfl ho
      | _ => exact (hvacant hold).2

/-- The goroutine that ends the session has still to clear the id of stream `i`, or the
session is not being ended yet. -/
def AwaitsEnd (i : Nat) (t : System) : Prop :=
  (t.shared.streams i).endOnce = .idle ∨
    ∃ g, (g = .expiry i ∨ ∃ c, g = .bridge i c) ∧ t.next? g = some (.stream i .clear)

/-- No other cleanup of stream `i` is at its leave. -/
def EndsAlone (i : Nat) (t : System) : Prop :=
  ∀ g, (g = .watchClose i ∨ ∃ k, g = .closeSend i k) → ∀ o, t.next? g ≠ some (.service o)

/-- A join stores its id only where the end of the session has still to clear it, and the
end of the session waits for the leaves of the other cleanups. -/
def StoresBeforeEnd (i : Nat) : System → Move → Prop :=
  StreamGuard i fun t o =>
    match o with
    | .store _ => AwaitsEnd i t
    | .closeEnded => EndsAlone i t
    | _ => True

/-- Once the end of the session has cleared the id, none is stored, and once it is over, no
goroutine has a client to remove. -/
structure EndedVacant (i : Nat) (s : Relay) (q : Goroutine → Duty) : Prop where
  vacant : (s.streams i).endOnce = .done ∨ (∃ g, (q g).entered = true ∧ (q g).cleared = true) →
    (s.streams i).clientId = ""
  settled : (s.streams i).ended = true → ∀ g, (q g).stage.Settled

theorem EndedVacant.clientId {s : Relay} {q : Goroutine → Duty} (h : EndedVacant i s q)
    (hs : Cleaning u i s q)
    (hended : (s.streams i).ended = true) : (s.streams i).clientId = "" := by
  obtain ⟨honce, hentered⟩ := hs.ended hended
  refine h.vacant ?_
  cases hcase : (s.streams i).endOnce with
  | idle => exact absurd hcase honce
  | running =>
    obtain ⟨g, hg⟩ := hs.running hcase
    exact Or.inr ⟨g, hg, (hentered hg).1⟩
  | done => exact Or.inl rfl

/-- A goroutine that is not at its leave has no client to remove. -/
theorem settled_of_next {t : System} {q : Goroutine → Duty}
    (hq : Disciplined (cleanup i) (Duty.Idle i) t q) (hg : g.stream? = some i)
    (hnext : ∀ j o, t.next? g = some (.stream j o) → j = i)
    (h : ∀ o, t.next? g ≠ some (.service o)) : (q g).stage.Settled := by
  cases hp : t.threads g with
  | none => exact (hq.resting hp).1
  | some p =>
    obtain ⟨⟨o, k, rfl⟩, -⟩ := hq.running hp
    have hop : t.next? g = some o := by
      rw [System.next?, hp]
      rfl
    cases o with
    | service o => exact absurd hop (h o)
    | stream j o =>
      obtain rfl := hnext j o hop
      have hmay := may_of_next hq hg hop
      cases o with
      | readClientId => exact hmay.2
      | store rj =>
        rw [hmay.2]
        trivial
      | onceEnter => exact hmay.2.2
      | clear => exact hmay.2.2.1
      | closeEnded | onceExit => exact hmay.2.2
      | stopExpiry => exact hmay.2
      | allow | goBridge _ | reply _ | closeSendCh => exact hmay

theorem Duty.nextOn_entered {d : Duty} {o : StreamOp} {a : o.Res} (ho : o ≠ .onceEnter)
    (h : (d.nextOn o a).entered = true) : d.entered = true := by
  cases o with
  | onceEnter => exact absurd rfl ho
  | onceExit => simp [nextOn] at h
  | _ => exact h

theorem Duty.nextOn_settled {d : Duty} {o : StreamOp} {a : o.Res} (ho : o ≠ .clear)
    (h : d.stage.Settled) : (d.nextOn o a).stage.Settled := by
  cases o with
  | clear => exact absurd rfl ho
  | readClientId =>
    simp only [nextOn]
    split <;> trivial
  | store rj => trivial
  | _ => exact h

section Own

variable {t : System} {m : Move} {q q' : Goroutine → Duty} {s' : Relay} {n : Nat} {o : StreamOp}
variable {a : o.Res}

/-- Where the end of the session is still awaited, nobody has cleared the id for it. -/
theorem AwaitsEnd.not_cleared (hq : Disciplined (cleanup i) (Duty.Idle i) t q)
    (hs : Cleaning u i t.shared q) (h : AwaitsEnd i t) :
    (t.shared.streams i).endOnce ≠ .done ∧
      ∀ {g}, (q g).entered = true → (q g).cleared = false := by
  rcases h with h | ⟨g, hkind, hnext⟩
  · refine ⟨by simp [h], fun hg => ?_⟩
    have honce := (hs.entered hg).1
    simp [h] at honce
  · have hmay : (q g).MayOn i g .clear := by
      refine may_of_next hq ?_ hnext
      rcases hkind with rfl | ⟨c, rfl⟩ <;> rfl
    obtain ⟨-, hcleared, -, hkind'⟩ := hmay
    have hentered : (q g).entered = true := by
      rcases hkind with rfl | ⟨c, rfl⟩ <;> simpa using hkind'
    refine ⟨by simp [(hs.entered hentered).1], fun hg => ?_⟩
    rwa [(hs.entered hentered).2 hg]

theorem EndedVacant.own_vacant (hq : Disciplined (cleanup i) (Duty.Idle i) t q)
    (hs : Cleaning u i t.shared q) (hvacant : EndedVacant i t.shared q)
    (hm : StoresBeforeEnd i t m) (h : CleanupOwn i t q m s' q' g n o a)
    (hdone : (s'.streams i).endOnce = .done ∨
      ∃ g, (q' g).entered = true ∧ (q' g).cleared = true) : (s'.streams i).clientId = "" := by
  have heffect := StreamOp.apply_effect h.apply
  have hok := h.ok hm
  have hmay := h.may
  rw [heffect.clientId]
  by_cases hclear : o = .clear
  · subst hclear
    rfl
  -- whoever ends the session and cleared the id did so before
  have hcleared : ∀ {g'}, (q' g').cleared = true → (q g').cleared = true := by
    intro g' h'
    rw [h.duty] at h'
    by_cases hg : g' = g
    · subst hg
      rwa [Function.update_self, Duty.nextOn_cleared hclear] at h'
    · rwa [Function.update_of_ne hg] at h'
  have hentered : o ≠ .onceEnter → ∀ {g'}, (q' g').entered = true → (q g').entered = true := by
    intro ho g' h'
    rw [h.duty] at h'
    by_cases hg : g' = g
    · subst hg
      rw [Function.update_self] at h'
      exact Duty.nextOn_entered ho h'
    · rwa [Function.update_of_ne hg] at h'
  have hkept : o ≠ .onceEnter → (s'.streams i).endOnce = (t.shared.streams i).endOnce →
      (t.shared.streams i).endOnce = .done ∨ ∃ g, (q g).entered = true ∧ (q g).cleared = true := by
    intro ho honce
    rw [honce] at hdone
    exact hdone.imp_right fun ⟨g', h₁, h₂⟩ => ⟨g', hentered ho h₁, hcleared h₂⟩
  cases o with
  | clear => exact absurd rfl hclear
  | store rj =>
    have hawaits : AwaitsEnd i t := hok
    obtain ⟨honce, hnot⟩ := hawaits.not_cleared hq hs
    rcases hkept (by simp) heffect.endOnce with h' | ⟨g', h₁, h₂⟩
    · exact absurd h' honce
    · simp [hnot h₁] at h₂
  | onceEnter =>
    have honce := heffect.endOnce
    rcases hdone with h' | ⟨g', h₁, h₂⟩
    · refine hvacant.vacant (Or.inl ?_)
      simp only [honce, StreamOp.onceAfter] at h'
      split at h'
      · simp at h'
      · exact h'
    · refine hvacant.vacant (Or.inr ⟨g', ?_, hcleared h₂⟩)
      rw [h.duty] at h₁
      by_cases hg : g' = g
      · subst hg
        have := hcleared h₂
        simp [hmay.2.1] at this
      · rwa [Function.update_of_ne hg] at h₁
  | onceExit => exact hvacant.vacant (Or.inr ⟨g, hmay.1, hmay.2.1⟩)
  | _ => exact hvacant.vacant (hkept (by simp) heffect.endOnce)

theorem EndedVacant.own_settled (hmembers : Holds (Op.exec u) (Relay.membership u cfg) t)
    (hq : Disciplined (cleanup i) (Duty.Idle i) t q)
    (hs : Cleaning u i t.shared q) (hvacant : EndedVacant i t.shared q)
    (hm : StoresBeforeEnd i t m) (h : CleanupOwn i t q m s' q' g n o a)
    (hended : (s'.streams i).ended = true) (g' : Goroutine) : (q' g').stage.Settled := by
  have heffect := StreamOp.apply_effect h.apply
  have hok := h.ok hm
  have hmay := h.may
  rw [h.duty]
  by_cases hclose : o = .closeEnded
  · subst hclose
    simp only [Duty.nextOn, Function.update_eq_self]
    by_contra hstage
    obtain ⟨hg', hkind⟩ := hs.owing hstage
    have hnext : ∀ j o, t.next? g' = some (.stream j o) → j = i := by
      intro j o hj
      obtain ⟨p, hp, hnext⟩ := Option.bind_eq_some_iff.mp hj
      obtain ⟨⟨o', k, rfl⟩, -⟩ := hmembers.running hp
      obtain rfl := Option.some.inj hnext
      have hreq := hmembers.req Relay.membership_sound hp
      exact Option.some.inj (hreq.1.symm.trans hg')
    rcases hkind with hkind | hkind | hentered
    · exact hstage (settled_of_next hq hg' hnext (hok g' (Or.inl hkind)))
    · exact hstage (settled_of_next hq hg' hnext (hok g' (Or.inr hkind)))
    · rw [(hs.entered hmay.1).2 hentered] at hstage
      exact hstage hmay.2.2
  have hold : (t.shared.streams i).ended = true := by
    rw [heffect.ended] at hended
    cases o with
    | closeEnded => exact absurd rfl hclose
    | _ => exact hended
  by_cases hg : g' = g
  · subst hg
    rw [Function.update_self]
    by_cases hclear : o = .clear
    · subst hclear
      obtain ⟨-, hids⟩ := Prod.mk.inj (Option.some.inj h.apply)
      simp [Duty.nextOn, ← hids, hvacant.clientId hs hold, Stage.Settled]
    · exact Duty.nextOn_settled hclear (hvacant.settled hold g')
  · rw [Function.update_of_ne hg]
    exact hvacant.settled hold g'

end Own

theorem EndedVacant.step {t : System} {m : Move} {q q' : Goroutine → Duty} {s' : Relay}
    (hmembers : Holds (Op.exec u) (Relay.membership u cfg) t)
    (hq : Disciplined (cleanup i) (Duty.Idle i) t q) (hs : Cleaning u i t.shared q)
    (hvacant : EndedVacant i t.shared q) (hm : StoresBeforeEnd i t m)
    (h : CleanupKept i t.shared q s' q' ∨ ∃ g n o a, CleanupOwn i t q m s' q' g n o a) :
    EndedVacant i s' q' := by
  rcases h with h | ⟨g, n, o, a, h⟩
  · refine ⟨fun hdone => ?_, fun hended g => ?_⟩
    · rw [h.clientId]
      refine hvacant.vacant ?_
      rw [h.endOnce] at hdone
      exact hdone.imp_right fun ⟨g, hentered, hcleared⟩ =>
        ⟨g, h.entered hentered, h.cleared hcleared⟩
    · rw [h.ended] at hended
      exact h.settled (hvacant.settled hended g)
  · exact ⟨hvacant.own_vacant hq hs hm h, hvacant.own_settled hmembers hq hs hm h⟩

/-! ### Every run -/

section Run

variable {maxPeers : Int} {moves : List Move} {t : System}

theorem Cleaning.init (maxPeers : Int) :
    Cleaning u i (System.init maxPeers).shared (fun _ => {}) where
  housed := .new maxPeers
  session h := absurd rfl h
  vacant h := by simp at h
  watched := by simp [System.init]
  entered h := by simp at h
  running h := by simp [System.init] at h
  ended h := by simp [System.init] at h
  owing h := absurd trivial h
  kept := by
    rintro c ⟨rj, hrj, -⟩
    simp [System.init] at hrj

/-- What the goroutines of a stream do about its clients along a run, with what else each
move keeps. -/
theorem cleaning_run {C : System → Move → Prop} {I : Relay → (Goroutine → Duty) → Prop}
    (hstep : ∀ {t m q q' s'}, Holds (Op.exec u) (Relay.membership u cfg) t →
      Disciplined (cleanup i) (Duty.Idle i) t q → Cleaning u i t.shared q → C t m →
      I t.shared q →
      (CleanupKept i t.shared q s' q' ∨ ∃ g n o a, CleanupOwn i t q m s' q' g n o a) → I s' q')
    (hinit : I (System.init maxPeers).shared fun _ => {})
    (hguard : Machine.Guarded (System.step u cfg) C (System.init maxPeers) moves)
    (h : System.run u cfg (System.init maxPeers) moves = some t) :
    ∃ q, Disciplined (cleanup i) (Duty.Idle i) t q ∧ Cleaning u i t.shared q ∧ I t.shared q := by
  refine (Relay.membership_sound.invariant (C := C) (I := fun t => ∃ q,
    Disciplined (cleanup i) (Duty.Idle i) t q ∧ Cleaning u i t.shared q ∧ I t.shared q)
    (fun _ => Relay.membership_ok) ?_ (Relay.membership_init maxPeers) ?_ hguard h).2
  · rintro t m t' hmembers hm ⟨q, hq, hs, hI⟩ hmove
    obtain ⟨q', hq', hs', hstep'⟩ := hs.move hmembers hq hmove
    exact ⟨q', hq', hs', hstep hmembers hq hs hm hI hstep'⟩
  · exact ⟨fun _ => {}, .init fun _ => ⟨trivial, rfl, fun _ h => by simp at h⟩,
      .init maxPeers, hinit⟩

/-- Nobody that stream `i` joined is in a room once no id is stored, no goroutine has a
client to remove, and no `Send` is in progress. -/
theorem Cleaning.nobody {q : Goroutine → Duty} {sid c : String} {r : RoomRef}
    (hs : Cleaning u i t.shared q) (hmembers : Holds (Op.exec u) (Relay.membership u cfg) t)
    (hsend : t.threads (.send i) = none) (hid : (t.shared.streams i).clientId = "")
    (hsettled : ∀ g, (q g).stage.Settled) (hr : t.shared.svc.getRoomByID sid = some r)
    (hc : c ∈ (t.shared.svc.roomAt r).clients) :
    (t.shared.svc.clientAt c).creator ≠ .send i := by
  intro hcreator
  have hhas : (t.shared.streams i).Has c := hmembers.idle hsend i rfl c hcreator
  rcases hs.kept hhas with hstored | hgone | ⟨g, howes⟩
  · obtain ⟨rj, hrj, rfl⟩ := hhas
    obtain ⟨k, -, hk⟩ := (hmembers.inv.answered hrj).issued
    exact u.new_ne_empty k (hk.symm.trans (hstored.trans hid))
  · exact hgone sid r hr hc
  · exact howes.not_settled (hsettled g)

/-- The context of stream `i` is done, `watchClose` has run, and all calls and goroutines of
the stream have finished. -/
structure StreamFinished (i : Nat) (t : System) : Prop where
  cancelled : (t.shared.streams i).cancelled = true
  watched : (t.shared.streams i).watched = true
  idle : ∀ g, g.stream? = some i → t.threads g = none

/-- In a run in which no join of stream `i` stores its id after `watchClose` has cleared it,
no room of the service has a client that the stream joined once the stream is finished; and
no room at all has one, if clients were only added to rooms of the service. -/
theorem closed_leavesNobody
    (hguard : Machine.Guarded (System.step u cfg) (StoresBeforeClose i)
      (System.init maxPeers) moves)
    (h : System.run u cfg (System.init maxPeers) moves = some t) (hfinished : StreamFinished i t) :
    (∀ sid r c, t.shared.svc.getRoomByID sid = some r → c ∈ (t.shared.svc.roomAt r).clients →
      (t.shared.svc.clientAt c).creator ≠ .send i) ∧
    (Machine.Guarded (System.step u cfg) (ServiceGuard AddsToRegistered) (System.init maxPeers)
      moves → ∀ r c, c ∈ (t.shared.svc.roomAt r).clients →
        (t.shared.svc.clientAt c).creator ≠ .send i) := by
  obtain ⟨q, hq, hs, hvacant⟩ := cleaning_run (I := ClosedVacant i)
    (fun _ hq hs hm hvacant hmove => hvacant.step hq hs hm hmove) (fun h => by simp at h) hguard h
  have hsettled : ∀ g, (q g).stage.Settled := by
    intro g
    by_contra hstage
    exact hstage (hq.resting (hfinished.idle g (hs.owing hstage).1)).1
  have hcleared : (q (.watchClose i)).cleared = true :=
    (hq.resting (hfinished.idle (.watchClose i) rfl)).2.2 rfl (hs.watched.mp hfinished.watched)
  have hnobody : ∀ sid r c, t.shared.svc.getRoomByID sid = some r →
      c ∈ (t.shared.svc.roomAt r).clients → (t.shared.svc.clientAt c).creator ≠ .send i :=
    fun sid r c => hs.nobody (Relay.membership_holds h) (hfinished.idle (.send i) rfl)
      (hvacant hcleared).2 hsettled
  exact ⟨hnobody, fun hadds r c hc => hnobody _ r c ((noOrphans_run hadds h).live hc) hc⟩

/-- Two streams join `s1`, and the first is closed. -/
def joinAndClose : List Move :=
  List.flatten [
    joinS1Stream,
    .launch (.send 1 { action := some (.join { sessionId := "s1" }) }) ::
      List.replicate 21 (.run (.send 1) 0),
    .launch (.cancel 0) :: .launch (.watchClose 0) :: List.replicate 12 (.run (.watchClose 0) 0)]

/-- Only the other one is left in the room. -/
theorem closed_leavesNobody_joinAndClose : ∃ t,
    System.run .unary (fun _ => {}) (System.init 10) joinAndClose = some t ∧ StreamFinished 0 t ∧
    t.shared.svc.getRoomByID "s1" = some 0 ∧ (t.shared.svc.roomAt 0).clients = ["uuuu"] ∧
    (t.shared.svc.clientAt "uuuu").creator ≠ .send 0 := by
  have hrun : (Machine.execIf (System.step .unary fun _ => {}) (StoresBeforeClose 0)
      (System.init 10) joinAndClose).any (fun t =>
        (t.shared.streams 0).cancelled = true ∧ (t.shared.streams 0).watched = true ∧
        (startedBy joinAndClose).all (fun g => (t.threads g).isNone) = true ∧
        t.shared.svc.getRoomByID "s1" = some 0 ∧
        (t.shared.svc.roomAt 0).clients = ["uuuu"]) = true := by
    decide +kernel
  obtain ⟨t, ht, hstate⟩ := (Option.any_eq_true _ _).mp hrun
  obtain ⟨hguard, ht⟩ := Machine.execIf_eq_some ht
  obtain ⟨hcancelled, hwatched, hidle, hreg, hclients⟩ := of_decide_eq_true hstate
  have hfinished : StreamFinished 0 t :=
    ⟨hcancelled, hwatched, fun g _ => idle_of_started ht hidle g⟩
  refine ⟨t, ht, hfinished, hreg, hclients, ?_⟩
  exact (closed_leavesNobody hguard ht hfinished).1 "s1" 0 "uuuu" hreg (by simp [hclients])

/-- The context is done when the client of a join is in its room and its id is not stored
yet; then the join goes on. -/
def closeDuringJoin : List Move :=
  List.flatten [
    .launch (.send 0 { action := some (.join { sessionId := "s1" }) }) ::
      List.replicate 14 (.run (.send 0) 0),
    [.launch (.cancel 0), .launch (.watchClose 0), .run (.watchClose 0) 0],
    List.replicate 5 (.run (.send 0) 0),
    [.launch (.bridge 0 "u" .done)]]

/-- Everything of the stream has finished, and its client is in the room. -/
theorem zombieAfterClose : ∃ t,
    System.run .unary (fun _ => {}) (System.init 10) closeDuringJoin = some t ∧
    StreamFinished 0 t ∧
    (∀ c, (t.shared.streams 0).bridges c = .off ∨ (t.shared.streams 0).bridges c = .ended) ∧
    t.shared.svc.getRoomByID "s1" = some 0 ∧ "u" ∈ (t.shared.svc.roomAt 0).clients ∧
    (t.shared.svc.clientAt "u").creator = .send 0 := by
  have hrun : (System.run .unary (fun _ => {}) (System.init 10) closeDuringJoin).any (fun t =>
      (t.shared.streams 0).cancelled = true ∧ (t.shared.streams 0).watched = true ∧
      (startedBy closeDuringJoin).all (fun g => (t.threads g).isNone) = true ∧
      (t.shared.streams 0).answered.map (·.clientId) = ["u"] ∧
      (t.shared.streams 0).bridges "u" = .ended ∧
      t.shared.svc.getRoomByID "s1" = some 0 ∧ "u" ∈ (t.shared.svc.roomAt 0).clients ∧
      (t.shared.svc.clientAt "u").creator = .send 0) = true := by
    decide +kernel
  obtain ⟨t, ht, hstate⟩ := (Option.any_eq_true _ _).mp hrun
  obtain ⟨hcancelled, hwatched, hidle, hanswered, hbridge, hroom⟩ := of_decide_eq_true hstate
  have hfinished : StreamFinished 0 t :=
    ⟨hcancelled, hwatched, fun g _ => idle_of_started ht hidle g⟩
  refine ⟨t, ht, hfinished, fun c => ?_, hroom⟩
  by_cases hc : c = "u"
  · exact Or.inr (hc ▸ hbridge)
  · exact Or.inl ((Relay.membership_holds ht).inv.bridges_off (by simp [hanswered, hc]))

/-- In a run in which no join of stream `i` stores its id after the end of the session has
cleared it, and the end of the session is over only after the leaves of the stream's other
cleanups, no room of the service has a client that the stream joined once the stream has
ended and no `Send` is in progress; and no room at all has one, if clients were only added to
rooms of the service. -/
theorem ended_leavesNobody
    (hguard : Machine.Guarded (System.step u cfg) (StoresBeforeEnd i) (System.init maxPeers) moves)
    (h : System.run u cfg (System.init maxPeers) moves = some t)
    (hended : (t.shared.streams i).ended = true) (hsend : t.threads (.send i) = none) :
    (∀ sid r c, t.shared.svc.getRoomByID sid = some r → c ∈ (t.shared.svc.roomAt r).clients →
      (t.shared.svc.clientAt c).creator ≠ .send i) ∧
    (Machine.Guarded (System.step u cfg) (ServiceGuard AddsToRegistered) (System.init maxPeers)
      moves → ∀ r c, c ∈ (t.shared.svc.roomAt r).clients →
        (t.shared.svc.clientAt c).creator ≠ .send i) := by
  obtain ⟨q, hq, hs, hvacant⟩ := cleaning_run (I := EndedVacant i)
    (fun hmembers hq hs hm hvacant hmove => hvacant.step hmembers hq hs hm hmove)
    ⟨by simp [System.init], by simp [System.init]⟩ hguard h
  have hnobody : ∀ sid r c, t.shared.svc.getRoomByID sid = some r →
      c ∈ (t.shared.svc.roomAt r).clients → (t.shared.svc.clientAt c).creator ≠ .send i :=
    fun sid r c => hs.nobody (Relay.membership_holds h) hsend (hvacant.clientId hs hended)
      (hvacant.settled hended)
  exact ⟨hnobody, fun hadds r c hc => hnobody _ r c ((noOrphans_run hadds h).live hc) hc⟩

/-- A session whose token expires. -/
def expiring : Nat → StreamConfig := fun _ => { expires := true }

/-- Two streams join `s1`, and the token of the first expires. -/
def joinAndExpire : List Move :=
  List.flatten [
    joinS1Stream,
    .launch (.send 1 { action := some (.join { sessionId := "s1" }) }) ::
      List.replicate 21 (.run (.send 1) 0),
    .launch (.expire 0) :: List.replicate 17 (.run (.expiry 0) 0)]

/-- Only the other one is left in the room. -/
theorem ended_leavesNobody_joinAndExpire : ∃ t,
    System.run .unary expiring (System.init 10) joinAndExpire = some t ∧
    (t.shared.streams 0).ended = true ∧ t.threads (.send 0) = none ∧
    t.shared.svc.getRoomByID "s1" = some 0 ∧ (t.shared.svc.roomAt 0).clients = ["uuuu"] ∧
    (t.shared.svc.clientAt "uuuu").creator ≠ .send 0 := by
  have hrun : (Machine.execIf (System.step .unary expiring) (StreamGuard 0 fun t o =>
      o.answers = [] ∨ (t.shared.streams 0).endOnce = .idle) (System.init 10) joinAndExpire).any
      (fun t => (t.shared.streams 0).ended = true ∧ (t.threads (.send 0)).isNone = true ∧
        t.shared.svc.getRoomByID "s1" = some 0 ∧
        (t.shared.svc.roomAt 0).clients = ["uuuu"]) = true := by
    decide +kernel
  obtain ⟨t, ht, hstate⟩ := (Option.any_eq_true _ _).mp hrun
  obtain ⟨hstores, ht⟩ := Machine.execIf_eq_some ht
  obtain ⟨hended, hsend, hreg, hclients⟩ := of_decide_eq_true hstate
  -- the run starts no other cleanup of the stream
  have hothers : Machine.Guarded (System.step .unary expiring) (fun t _ => ∀ g,
      (g = .watchClose 0 ∨ ∃ k, g = .closeSend 0 k) → t.threads g = none) (System.init 10)
      joinAndExpire := by
    refine (never_started (fun m hm g p hg hstarted => ?_) fun _ _ => rfl).1
    have hstarted : g ∈ [Goroutine.send 0, .send 1, .expiry 0] := mem_startedBy hm hstarted
    rcases hg with rfl | ⟨k, rfl⟩ <;> simp at hstarted
  have hguard : Machine.Guarded (System.step .unary expiring) (StoresBeforeEnd 0) (System.init 10)
      joinAndExpire := by
    refine (hstores.and hothers).imp fun t m ⟨hm, hidle⟩ => hm.imp fun o ho => ?_
    cases o with
    | store rj =>
      rcases ho with ho | ho
      · simp [StreamOp.answers] at ho
      · exact Or.inl ho
    | closeEnded =>
      intro g hg o
      simp [System.next?, hidle g hg]
    | _ => trivial
  have hsend : t.threads (.send 0) = none := Option.isNone_iff_eq_none.mp hsend
  refine ⟨t, ht, hended, hsend, hreg, hclients, ?_⟩
  exact (ended_leavesNobody hguard ht hended hsend).1 "s1" 0 "uuuu" hreg (by simp [hclients])

/-- The token of a stream expires before its first join. -/
def joinAfterExpiry : List Move :=
  List.flatten [
    .launch (.expire 0) :: List.replicate 6 (.run (.expiry 0) 0),
    joinS1Stream]

/-- The stream has ended, no `Send` is in progress, and its client is in the room. -/
theorem joinedAfterEnd : ∃ t,
    System.run .unary expiring (System.init 10) joinAfterExpiry = some t ∧
    (t.shared.streams 0).ended = true ∧ t.threads (.send 0) = none ∧
    t.shared.svc.getRoomByID "s1" = some 0 ∧ (t.shared.svc.roomAt 0).clients = ["uu"] ∧
    (t.shared.svc.clientAt "uu").creator = .send 0 := by
  have hrun : (System.run .unary expiring (System.init 10) joinAfterExpiry).any (fun t =>
      (t.shared.streams 0).ended = true ∧ (t.threads (.send 0)).isNone = true ∧
      t.shared.svc.getRoomByID "s1" = some 0 ∧ (t.shared.svc.roomAt 0).clients = ["uu"] ∧
      (t.shared.svc.clientAt "uu").creator = .send 0) = true := by
    decide +kernel
  obtain ⟨t, ht, hstate⟩ := (Option.any_eq_true _ _).mp hrun
  obtain ⟨hended, hidle, hroom⟩ := of_decide_eq_true hstate
  exact ⟨t, ht, hended, Option.isNone_iff_eq_none.mp hidle, hroom⟩

end Run

end MassRelay

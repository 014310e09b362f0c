import MassRelay.Server.Channels
import MassRelay.Services.FanOut

/-!
# MassRelay.Server.Addressed

An addressed message reaches the receivers that it names, and nobody else.

`SendEach` goes over the ids of a message with the set of those that it has seen. So it delivers
to a client of the room once however often it is listed (`mem_eachLoop`, `eachLoop_nodup`), and
what it reports missing are the other ids, each where it first stands (`eachLoop_missing`). The
event a receiver gets is made of the message without its list, and of the receiver's own id.
-/

namespace MassRelay

namespace CollabService

variable {u : UuidSource} {s s' s'' : CollabService} {g : Goroutine} {r : RoomRef}
variable {x eventId : String} {msg msg' : AppMessage}

/-! ### The loop -/

/-- The ids of a list that are not in room `r`, each where it first stands. -/
def absent (s : CollabService) (r : RoomRef) (ids : List String) : List String :=
  (ids.filter (· ∉ (s.roomAt r).clients)).eraseDups

theorem eachLoop_missing (s : CollabService) (r : RoomRef) (ids seen : List String) :
    (s.eachLoop r ids seen).2 = s.absent r (ids.filter (· ∉ seen)) := by
  unfold absent
  induction ids generalizing seen with
  | nil => rfl
  | cons id ids ih =>
    unfold eachLoop
    by_cases hseen : id ∈ seen
    · rw [if_pos hseen, ih, List.filter_cons_of_neg (by simpa using hseen)]
    · rw [if_neg hseen, List.filter_cons_of_pos (by simpa using hseen)]
      by_cases hid : id ∈ (s.roomAt r).clients
      · -- A client that is there is not missing, whether it was seen or not.
        simp only [if_pos hid, ih, List.filter_filter]
        rw [List.filter_cons_of_neg (by simpa using hid), List.filter_filter]
        congr 1
        refine List.filter_congr fun c _ => ?_
        grind
      · simp only [if_neg hid, ih, List.filter_filter]
        rw [List.filter_cons_of_pos (by simpa using hid), List.eraseDups_cons, List.filter_filter,
          List.filter_filter]
        congr 2
        refine List.filter_congr fun c _ => ?_
        grind

/-- What `deliverAddressed` reports missing. -/
theorem deliverAddressed_missing (s : CollabService) (msg : AppMessage) :
    (s.deliverAddressed g r eventId x msg).2 = s.absent r msg.toClientIds := by
  have hmissing := eachLoop_missing s r msg.toClientIds []
  rwa [List.filter_eq_self.mpr (by simp)] at hmissing

theorem deliverAddressed_nextUuid (s : CollabService) (msg : AppMessage) :
    (s.deliverAddressed g r eventId x msg).1.nextUuid = s.nextUuid :=
  congrArg (fun s' => s'.nextUuid) (deliverAll_atRest g s _)

/-! ### The receivers -/

/-- Each client of room `r` that the message lists got it once, from `x` and addressed to itself
alone, and nothing else happened to a queue or a room. -/
structure Addressed (s s' : CollabService) (r : RoomRef) (eventId x : String)
    (msg : AppMessage) : Prop where
  delivered : ∀ c ∈ msg.toClientIds, c ∈ (s.roomAt r).clients →
    Delivered (s.clientAt c) (s'.clientAt c)
      ⟨eventId, x, .appMessage ⟨msg.kind, msg.payload, [c]⟩⟩
  others : ∀ c, c ∉ msg.toClientIds ∨ c ∉ (s.roomAt r).clients → s'.clientAt c = s.clientAt c
  rooms : s'.rooms = s.rooms
  roomAt : s'.roomAt = s.roomAt

theorem deliverAddressed_addressed (hopen : ∀ c ∈ (s.roomAt r).clients,
    (s.clientAt c).sendCh.closed = false) :
    Addressed s (s.deliverAddressed g r eventId x msg).1 r eventId x msg := by
  have hfst : ∀ ids : List String,
      (ids.map fun id => (id, addressedEvent eventId x msg id)).map Prod.fst = ids := by
    simp [Function.comp_def]
  have hmem : ∀ c, c ∈ (s.eachLoop r msg.toClientIds []).1 ↔
      c ∈ msg.toClientIds ∧ c ∈ (s.roomAt r).clients := by
    simp [mem_eachLoop]
  constructor
  · intro c hlisted hc
    refine deliverAll_client g ?_ ?_ (hopen c hc)
    · rw [hfst]
      exact eachLoop_nodup s r msg.toClientIds []
    · exact List.mem_map_of_mem (f := fun id => (id, addressedEvent eventId x msg id))
        ((hmem c).mpr ⟨hlisted, hc⟩)
  · intro c hnot
    refine deliverAll_client_of_notMem g s ?_
    rw [hfst, hmem]
    rintro ⟨hlisted, hc⟩
    exact hnot.elim (absurd hlisted) (absurd hc)
  · exact (SendsOnly.deliverAll g s _).rooms
  · exact (SendsOnly.deliverAll g s _).roomAt

/-- Steps before and after that come near neither a queue nor a room. -/
theorem Addressed.around {s₁ s₂ : CollabService} (h : Addressed s₁ s₂ r eventId x msg)
    (hclients : s₁.clientAt = s.clientAt) (hroomAt : s₁.roomAt = s.roomAt)
    (hrooms : s₁.rooms = s.rooms) (hclients' : s'.clientAt = s₂.clientAt)
    (hroomAt' : s'.roomAt = s₂.roomAt) (hrooms' : s'.rooms = s₂.rooms) :
    Addressed s s' r eventId x msg where
  delivered c hlisted hc := by
    rw [← hclients, hclients']
    exact h.delivered c hlisted (by rwa [hroomAt])
  others c hnot := by
    rw [← hclients, hclients']
    exact h.others c (by rwa [hroomAt])
  rooms := by rw [hrooms', h.rooms, hrooms]
  roomAt := by rw [hroomAt', h.roomAt, hroomAt]

/-- Two queues that hold the same events. -/
def Alike (cl cl' : CollabClient) : Prop :=
  cl.slow = cl'.slow ∧ cl.sendCh.buf.map (·.event) = cl'.sendCh.buf.map (·.event)

theorem Delivered.alike {cl cl' cl'' : CollabClient} {e : CollabEvent} (h : Delivered cl cl' e)
    (h' : Delivered cl cl'' e) : Alike cl' cl'' := by
  cases h with
  | skipped hslow h =>
    cases h' with
    | skipped _ h' => exact h ▸ h' ▸ ⟨rfl, rfl⟩
    | queued _ _ hslow' _ _ _ _ => exact absurd (hslow'.symm.trans hslow) Bool.false_ne_true
    | overflowed hslow' _ _ => exact absurd (hslow'.symm.trans hslow) Bool.false_ne_true
  | queued q ch hslow hfree hevent hbuf h =>
    cases h' with
    | skipped hslow' _ => exact absurd (hslow.symm.trans hslow') Bool.false_ne_true
    | queued q' ch' _ _ hevent' hbuf' h' =>
      refine ⟨by rw [h, h'], ?_⟩
      simp only [h, h', hbuf, hbuf', List.map_append, List.map_cons, hevent, hevent']
    | overflowed _ hfull _ => omega
  | overflowed hslow hfull h =>
    cases h' with
    | skipped hslow' _ => exact absurd (hslow.symm.trans hslow') Bool.false_ne_true
    | queued _ _ _ hfree _ _ _ => omega
    | overflowed _ _ h' => exact ⟨by rw [h, h'], by rw [h, h']⟩

/-- A receiver cannot tell who else is listed. -/
theorem Addressed.alike {c : String} (h : Addressed s s' r eventId x msg)
    (h' : Addressed s s'' r eventId x msg') (hkind : msg'.kind = msg.kind)
    (hpayload : msg'.payload = msg.payload) (hlisted : c ∈ msg.toClientIds)
    (hlisted' : c ∈ msg'.toClientIds) (hc : c ∈ (s.roomAt r).clients) :
    Alike (s'.clientAt c) (s''.clientAt c) := by
  have hdelivered' := h'.delivered c hlisted' hc
  rw [hkind, hpayload] at hdelivered'
  exact (h.delivered c hlisted hc).alike hdelivered'

/-! ### The callers -/

/-- The answer to a sender about the receivers that are not in its room: it names them, with
commas between. -/
def broadcastAnswer (eventId : String) (missing : List String) : Answer :=
  if missing = [] then .nothing
  else .event
    { eventId
      event := .error ⟨"PEER_NOT_FOUND", "Not in this room: " ++ ", ".intercalate missing⟩ }

/-- The same as the error of a caller without a socket. -/
def deliverError (missing : List String) : Option String :=
  if missing = [] then none else some ("peer not found in room: " ++ ", ".intercalate missing)

theorem handleBroadcast_exact (hfind : s.findRoomForClient x = some r)
    (hopen : ∀ c ∈ (s.roomAt r).clients, (s.clientAt c).sendCh.closed = false)
    (hids : msg.toClientIds ≠ []) :
    Addressed s (s.handleBroadcast u g x (.appMessage msg)).1 r (s.uuid u) x msg ∧
      (s.handleBroadcast u g x (.appMessage msg)).2 =
        broadcastAnswer (s.tick.uuid u) (s.absent r msg.toClientIds) := by
  have haddressed : Addressed s.tick (s.tick.deliverAddressed g r (s.uuid u) x msg).1 r (s.uuid u)
      x msg := deliverAddressed_addressed hopen
  have hmissing : (s.tick.deliverAddressed g r (s.uuid u) x msg).2 = s.absent r msg.toClientIds :=
    deliverAddressed_missing s.tick msg
  have huuid : (s.tick.deliverAddressed g r (s.uuid u) x msg).1.countRelay.uuid u =
      s.tick.uuid u :=
    congrArg u.new (deliverAddressed_nextUuid s.tick msg)
  simp only [handleBroadcast, hfind, relayed, noteRelayed, addressed?, if_neg hids, hmissing,
    broadcastAnswer, huuid]
  by_cases hall : s.absent r msg.toClientIds = []
  · rw [if_pos hall, if_pos hall]
    exact ⟨haddressed.around rfl rfl rfl rfl rfl rfl, rfl⟩
  · rw [if_neg hall, if_neg hall]
    exact ⟨haddressed.around rfl rfl rfl rfl rfl rfl, rfl⟩

theorem deliverAppMessage_exact {sid : String} (hr : s.getRoomByID sid = some r)
    (hopen : ∀ c ∈ (s.roomAt r).clients, (s.clientAt c).sendCh.closed = false)
    (hids : msg.toClientIds ≠ []) :
    Addressed s (s.deliverAppMessage u g sid x msg).1 r (s.uuid u) x msg ∧
      (s.deliverAppMessage u g sid x msg).2 = deliverError (s.absent r msg.toClientIds) := by
  have haddressed : Addressed s.tick (s.tick.deliverAddressed g r (s.uuid u) x msg).1 r (s.uuid u)
      x msg := deliverAddressed_addressed hopen
  have hmissing : (s.tick.deliverAddressed g r (s.uuid u) x msg).2 = s.absent r msg.toClientIds :=
    deliverAddressed_missing s.tick msg
  simp only [deliverAppMessage, hr, if_neg hids, hmissing, deliverError]
  exact ⟨haddressed.around rfl rfl rfl rfl rfl rfl, rfl⟩

end CollabService

open CollabService

/-- In every state that a run reaches, however the calls before overlapped: each client of the
room that a message lists gets it once, from its sender and addressed to itself alone, no other
queue changes, and the ids reported missing are those that are not in the room, each where it
first stands. A receiver's queue is the same whoever else is listed. -/
theorem addressed_exact {u : UuidSource} {cfg : Nat → StreamConfig} {maxPeers : Int}
    {moves : List Move} {t : System}
    (hrun : System.run u cfg (System.init maxPeers) moves = some t) (g : Goroutine) (x : String)
    (msg : AppMessage) (hids : msg.toClientIds ≠ []) :
    let s := t.shared.svc
    (∀ r, s.findRoomForClient x = some r →
      Addressed s (s.handleBroadcast u g x (.appMessage msg)).1 r (s.uuid u) x msg ∧
      (s.handleBroadcast u g x (.appMessage msg)).2 =
        broadcastAnswer (s.tick.uuid u) (s.absent r msg.toClientIds) ∧
      ∀ msg', msg'.kind = msg.kind → msg'.payload = msg.payload → ∀ c ∈ (s.roomAt r).clients,
        c ∈ msg.toClientIds → c ∈ msg'.toClientIds →
        Alike ((s.handleBroadcast u g x (.appMessage msg)).1.clientAt c)
          ((s.handleBroadcast u g x (.appMessage msg')).1.clientAt c)) ∧
    ∀ sid r, s.getRoomByID sid = some r →
      Addressed s (s.deliverAppMessage u g sid x msg).1 r (s.uuid u) x msg ∧
      (s.deliverAppMessage u g sid x msg).2 = deliverError (s.absent r msg.toClientIds) ∧
      ∀ msg', msg'.kind = msg.kind → msg'.payload = msg.payload → ∀ c ∈ (s.roomAt r).clients,
        c ∈ msg.toClientIds → c ∈ msg'.toClientIds →
        Alike ((s.deliverAppMessage u g sid x msg).1.clientAt c)
          ((s.deliverAppMessage u g sid x msg').1.clientAt c) := by
  intro s
  have hopen : ∀ r, ∀ c ∈ (s.roomAt r).clients, (s.clientAt c).sendCh.closed = false :=
    fun r c hc => (channels_run hrun).2.1.opened hc
  refine ⟨fun r hfind => ?_, fun sid r hr => ?_⟩
  · obtain ⟨haddressed, hanswer⟩ := handleBroadcast_exact (u := u) (g := g) hfind (hopen r) hids
    refine ⟨haddressed, hanswer, fun msg' hkind hpayload c hc hlisted hlisted' => ?_⟩
    have hids' : msg'.toClientIds ≠ [] := List.ne_nil_of_mem hlisted'
    exact haddressed.alike (handleBroadcast_exact hfind (hopen r) hids').1 hkind hpayload hlisted
      hlisted' hc
  · obtain ⟨haddressed, herror⟩ := deliverAppMessage_exact (u := u) (g := g) (x := x) hr (hopen r)
      hids
    refine ⟨haddressed, herror, fun msg' hkind hpayload c hc hlisted hlisted' => ?_⟩
    have hids' : msg'.toClientIds ≠ [] := List.ne_nil_of_mem hlisted'
    exact haddressed.alike (deliverAppMessage_exact hr (hopen r) hids').1 hkind hpayload hlisted
      hlisted' hc

/-- Two clients are in a room, and the first addresses itself twice, somebody who is not there
twice, and the second. -/
theorem addressed_exact_absent : ∃ t,
    System.run .unary (fun _ => {}) (System.init 10) (endDuringBroadcast.take 31) = some t ∧
    t.shared.svc.findRoomForClient "u" = some 0 ∧
    Addressed t.shared.svc (t.shared.svc.handleBroadcast .unary (.direct 0) "u"
      (.appMessage ⟨"k", [], ["u", "nobody", "u", "uuuu", "nobody"]⟩)).1 0
      (t.shared.svc.uuid .unary) "u" ⟨"k", [], ["u", "nobody", "u", "uuuu", "nobody"]⟩ ∧
    (t.shared.svc.handleBroadcast .unary (.direct 0) "u"
      (.appMessage ⟨"k", [], ["u", "nobody", "u", "uuuu", "nobody"]⟩)).2 =
        .event
          { eventId := t.shared.svc.tick.uuid .unary
            event := .error ⟨"PEER_NOT_FOUND", "Not in this room: nobody"⟩ } := by
  have hrun : (System.run .unary (fun _ => {}) (System.init 10)
      (endDuringBroadcast.take 31)).any (fun t =>
        t.shared.svc.findRoomForClient "u" = some 0 ∧
        t.shared.svc.absent 0 ["u", "nobody", "u", "uuuu", "nobody"] = ["nobody"]) = true := by
    decide +kernel
  obtain ⟨t, ht, hstate⟩ := (Option.any_eq_true _ _).mp hrun
  obtain ⟨hfind, habsent⟩ := of_decide_eq_true hstate
  obtain ⟨haddressed, hanswer, -⟩ := (addressed_exact ht (.direct 0) "u"
    ⟨"k", [], ["u", "nobody", "u", "uuuu", "nobody"]⟩ (by simp)).1 0 hfind
  exact ⟨t, ht, hfind, haddressed, by rw [hanswer, habsent]; rfl⟩

end MassRelay

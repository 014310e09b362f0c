import MassRelay.Lib.History
import MassRelay.Services.Ownership

/-!
# MassRelay.Services.Refusals

What a join leaves behind that is refused.

`handleJoin` indexes its hint before it looks at the room, creates the room before it
checks it, and declares it encrypted before it compares protocol versions. So a refused
join can leave a hint, an empty room, or a room that is encrypted from now on
(`LeavesTrace`), and with any other nothing changes (`refusedJoin_untouched_iff`). The
first two are what leaks rooms and hints (`Leaks`): without such a join, a registered
room always has a client, and a hint always points to a registered room
(`noLeaks_run_iff`).
-/

namespace MassRelay

/-- An answer that refuses the request: an `ErrorEvent`, or a Go error. -/
def Answer.refuses : Answer → Bool
  | .err _ => true
  | .event { event := .error _, .. } => true
  | _ => false

namespace CollabService

variable {u : UuidSource} {s s' s'' : CollabService} {g : Goroutine} {ctx : Ctx} {join : JoinRoom}
variable {r : RoomRef} {sid : String}

/-! ### What the checks leave behind -/

/-- The rooms, the hints and the clients with their queues are as before. -/
structure Untouched (s s' : CollabService) : Prop where
  rooms : s'.rooms = s.rooms
  roomAt : s'.roomAt = s.roomAt
  hintIndex : s'.hintIndex = s.hintIndex
  clientAt : s'.clientAt = s.clientAt

theorem Untouched.trans (h : Untouched s s') (h' : Untouched s' s'') : Untouched s s'' :=
  ⟨h'.rooms.trans h.rooms, h'.roomAt.trans h.roomAt, h'.hintIndex.trans h.hintIndex,
    h'.clientAt.trans h.clientAt⟩

/-- An owner declares its room encrypted, with a protocol too old for that. -/
def declaresTooOld (join : JoinRoom) : Bool :=
  join.isOwner && join.encrypted && join.protocolVersion < 2

/-- The join points its hint to a session that it does not point to yet. -/
def movesHint (u : UuidSource) (s : CollabService) (join : JoinRoom) : Prop :=
  join.clientHint ≠ "" ∧ s.hintIndex join.clientHint ≠ some (s.joinTarget u join)

/-- The room of the join's session refuses it, or there is none and it must exist, or the
new one would. -/
def turnedAway (u : UuidSource) (s : CollabService) (join : JoinRoom) : Prop :=
  match s.getRoomByID (s.joinTarget u join) with
  | some r => s.refuses join r = true
  | none => join.mustExist = true ∨ declaresTooOld join = true

/-- The join is refused by the encryption check, after it created its room or changed the
room's flag. -/
def marksRoom (u : UuidSource) (s : CollabService) (join : JoinRoom) : Prop :=
  declaresTooOld join = true ∧
  match s.getRoomByID (s.joinTarget u join) with
  | some r => s.isFull r = false ∧ s.ownedElsewhere r join.browserId = false ∧
    (s.roomAt r).encrypted = false
  | none => join.mustExist = false

/-- A join that is refused past the token check, having moved a hint or marked a room. -/
def LeavesTrace (u : UuidSource) (s : CollabService) (ctx : Ctx) (join : JoinRoom) : Prop :=
  allowsRoom ctx join.sessionId = true ∧ turnedAway u s join ∧
    (movesHint u s join ∨ marksRoom u s join)

theorem atLookup_hintIndex (s : CollabService) (join : JoinRoom) :
    (s.atLookup u join).hintIndex =
      if join.clientHint ≠ "" then
        Function.update s.hintIndex join.clientHint (some (s.joinTarget u join))
      else s.hintIndex := by
  have hsnd : (s.resolveSession u join).2.hintIndex = s.hintIndex := by
    rcases resolveSession_snd u join s with h | h <;> rw [h]
    rfl
  unfold atLookup indexHint
  split
  · simp [hsnd]
  · exact hsnd

/-- Until it looks its room up, a join touches nothing but its hint. -/
theorem atLookup_untouched_iff : Untouched s (s.atLookup u join) ↔ ¬ movesHint u s join := by
  obtain ⟨hints, n, heq⟩ := atLookup_eq u join s
  have hhints := atLookup_hintIndex (u := u) s join
  constructor
  · rintro h ⟨hhint, hmoves⟩
    have := congrFun h.hintIndex join.clientHint
    rw [hhints, if_pos hhint, Function.update_self] at this
    exact hmoves this.symm
  · intro hmoves
    refine ⟨by rw [heq], by rw [heq], ?_, by rw [heq]⟩
    rw [hhints]
    split
    · rename_i hhint
      have hsame : s.hintIndex join.clientHint = some (s.joinTarget u join) := by
        by_contra hne
        exact hmoves ⟨hhint, hne⟩
      rw [← hsame, Function.update_eq_self]
    · rfl

theorem declareEncrypted_encrypted (s : CollabService) (r : RoomRef) (join : JoinRoom) :
    ((s.declareEncrypted r join).roomAt r).encrypted =
      ((join.isOwner && join.encrypted) || (s.roomAt r).encrypted) := by
  unfold declareEncrypted
  split
  · rename_i h
    simp [h]
  · rename_i h
    simp only [Bool.not_eq_true] at h
    simp [h]

/-- A join is answered with a refusal exactly when a check refuses it. -/
theorem enterRoom_answer_refuses :
    (s.enterRoom u g ctx join sid r).2.refuses = s.refuses join r := by
  cases hrefuse : s.refuses join r with
  | false =>
    rw [enterRoom_accepted hrefuse]
    rfl
  | true =>
    unfold enterRoom
    split
    · rfl
    · split
      · rfl
      · dsimp only
        split
        · rfl
        · simp_all [refuses]

theorem Untouched.tick (s : CollabService) : Untouched s s.tick := ⟨rfl, rfl, rfl, rfl⟩

theorem declareEncrypted_untouched_iff : Untouched s (s.declareEncrypted r join) ↔
    ¬ (join.isOwner = true ∧ join.encrypted = true ∧ (s.roomAt r).encrypted = false) := by
  have hflag := declareEncrypted_encrypted s r join
  constructor
  · rintro h ⟨howner, henc, hroom⟩
    rw [h.roomAt, hroom] at hflag
    simp [howner, henc] at hflag
  · intro hnot
    unfold declareEncrypted
    split
    · rename_i hdeclares
      simp only [Bool.and_eq_true] at hdeclares
      have hroom : (s.roomAt r).encrypted = true := by
        by_contra hroom
        exact hnot ⟨hdeclares.1, hdeclares.2, Bool.eq_false_of_not_eq_true hroom⟩
      have hsame : ({ s.roomAt r with encrypted := true } : CollabRoom) = s.roomAt r := by
        rw [← hroom]
      exact ⟨rfl, Function.update_eq_self_iff.mpr hsame, rfl, rfl⟩
    · exact ⟨rfl, rfl, rfl, rfl⟩

/-- What the checks of a room touch is its encryption flag. -/
theorem enterRoom_untouched_iff (hrefuse : s.refuses join r = true) :
    Untouched s (s.enterRoom u g ctx join sid r).1 ↔
      ¬ (declaresTooOld join = true ∧ s.isFull r = false ∧
        s.ownedElsewhere r join.browserId = false ∧ (s.roomAt r).encrypted = false) := by
  unfold enterRoom
  split
  · rename_i hfull
    exact iff_of_true (.tick s) (by simp [hfull])
  · rename_i hfull
    split
    · rename_i howned
      simp only [Bool.and_eq_true] at howned
      exact iff_of_true ⟨rfl, rfl, rfl, rfl⟩ (by simp [howned.2])
    · rename_i howned
      dsimp only
      split
      · rename_i hold
        simp only [Bool.and_eq_true, decide_eq_true_eq] at hold
        have hticked : Untouched s (s.declareEncrypted r join).tick ↔
            Untouched s (s.declareEncrypted r join) :=
          ⟨fun h => ⟨h.rooms, h.roomAt, h.hintIndex, h.clientAt⟩, fun h => h.trans (.tick _)⟩
        rw [hticked, declareEncrypted_untouched_iff]
        simp only [Bool.not_eq_true] at hfull
        simp only [Bool.and_eq_true, not_and, Bool.not_eq_true] at howned
        simp only [declaresTooOld, Bool.and_eq_true, decide_eq_true_eq, hold.2, and_true, hfull,
          true_and]
        refine not_congr ⟨fun h => ⟨⟨h.1, h.2.1⟩, howned h.1, h.2.2⟩, fun h => ?_⟩
        exact ⟨h.1.1, h.1.2, h.2.2⟩
      · simp_all [refuses]

/-! ### The whole join -/

/-- A new room refuses only an owner that declares it encrypted with too old a
protocol. -/
theorem newRoom_refuses (join : JoinRoom) (hempty : (s.roomAt r).clients = [])
    (howner : (s.roomAt r).ownerClientId = "") (hplain : (s.roomAt r).encrypted = false) :
    s.refuses join r = declaresTooOld join := by
  have hfull : s.isFull r = false := by
    simp only [isFull, clientCount, hempty, List.length_nil, Bool.and_eq_false_iff,
      decide_eq_false_iff_not]
    omega
  have howned : s.ownedElsewhere r join.browserId = false := by simp [ownedElsewhere, howner]
  simp [refuses, hfull, howned, declareEncrypted_encrypted, hplain, declaresTooOld]

/-- The room a join creates. -/
theorem getOrCreateRoom_new (h : s.getRoomByID sid = none) :
    (s.getOrCreateRoom sid).2.roomAt (s.getOrCreateRoom sid).1 = { sessionId := sid } := by
  rcases getOrCreateRoom_cases s sid with ⟨r, hr, -⟩ | ⟨-, hfst, -, hroom, -⟩
  · rw [h] at hr
    exact absurd hr (by simp)
  · rw [hfst, hroom, Function.update_self]

theorem handleJoin_forbidden (h : allowsRoom ctx join.sessionId = false) :
    s.handleJoin u g ctx join = (s.tick, .event (errorEvent (s.uuid u) "ROOM_FORBIDDEN"
      "This token may not join this room")) := by
  rw [handleJoin, if_pos (by simp [h])]

/-- What a join does past the token check: there is no room and it must exist, there is
one, or it creates one. -/
theorem handleJoin_allowed (hallows : allowsRoom ctx join.sessionId = true) :
    (s.getRoomByID (s.joinTarget u join) = none ∧ join.mustExist = true ∧
      ∃ e, s.handleJoin u g ctx join = ((s.atLookup u join).tick, .event e) ∧
        (Answer.event e).refuses = true) ∨
    (∃ r, s.getRoomByID (s.joinTarget u join) = some r ∧
      s.handleJoin u g ctx join =
        (s.atLookup u join).enterRoom u g ctx join (s.joinTarget u join) r) ∨
    (s.getRoomByID (s.joinTarget u join) = none ∧ join.mustExist = false ∧
      s.handleJoin u g ctx join =
        ((s.atLookup u join).getOrCreateRoom (s.joinTarget u join)).2.enterRoom u g ctx join
          (s.joinTarget u join)
          ((s.atLookup u join).getOrCreateRoom (s.joinTarget u join)).1) := by
  have hlook := (SameRooms.atLookup (u := u) s join).getRoomByID (s.joinTarget u join)
  cases hr : s.getRoomByID (s.joinTarget u join) with
  | some r =>
    refine Or.inr (Or.inl ⟨r, rfl, ?_⟩)
    rw [handleJoin_eq_enterRoom hallows (by simp [hlook, hr]),
      getOrCreateRoom_of_registered (hlook.trans hr)]
  | none =>
    cases hmust : join.mustExist with
    | true =>
      refine Or.inl ⟨rfl, rfl, errorEvent ((s.atLookup u join).uuid u) "ROOM_NOT_FOUND"
        ("No room " ++ s.joinTarget u join ++ " on this relay"), ?_, rfl⟩
      rw [handleJoin, if_neg (by simp [hallows])]
      refine if_pos ?_
      rw [hmust]
      exact Option.isNone_iff_eq_none.mpr (hlook.trans hr)
    | false =>
      exact Or.inr (Or.inr ⟨rfl, rfl, handleJoin_eq_enterRoom hallows (by simp [hmust])⟩)

/-- A join is answered with a refusal exactly when its token does not allow the session or
the room turns it away. -/
theorem handleJoin_refuses_iff : (s.handleJoin u g ctx join).2.refuses = true ↔
    allowsRoom ctx join.sessionId = false ∨ turnedAway u s join := by
  cases hallows : allowsRoom ctx join.sessionId with
  | false =>
    rw [handleJoin_forbidden hallows]
    exact iff_of_true rfl (Or.inl rfl)
  | true =>
    rw [turnedAway]
    rcases handleJoin_allowed (u := u) (s := s) (g := g) hallows with
      ⟨hr, hmust, e, heq, he⟩ | ⟨r, hr, heq⟩ | ⟨hr, hmust, heq⟩
    · rw [heq, hr]
      exact iff_of_true he (Or.inr (Or.inl hmust))
    · rw [heq, hr, enterRoom_answer_refuses, atLookup_refuses]
      simp
    · have hnew := getOrCreateRoom_new
        (((SameRooms.atLookup (u := u) s join).getRoomByID (s.joinTarget u join)).trans hr)
      rw [heq, hr, enterRoom_answer_refuses,
        newRoom_refuses join (by rw [hnew]) (by rw [hnew]) (by rw [hnew])]
      simp [hmust]

theorem enterRoom_refused_hintIndex (hrefuse : s.refuses join r = true) :
    (s.enterRoom u g ctx join sid r).1.hintIndex = s.hintIndex := by
  unfold enterRoom
  split
  · rfl
  · split
    · rfl
    · dsimp only
      split
      · unfold declareEncrypted
        split <;> rfl
      · simp_all [refuses]

/-- Looking up the room and checking it touch different things. -/
theorem atLookup_enterRoom_untouched_iff (hrefuse : s.refuses join r = true) :
    Untouched s ((s.atLookup u join).enterRoom u g ctx join sid r).1 ↔
      Untouched s (s.atLookup u join) ∧
        Untouched (s.atLookup u join) ((s.atLookup u join).enterRoom u g ctx join sid r).1 := by
  have hhints : ((s.atLookup u join).enterRoom u g ctx join sid r).1.hintIndex =
      (s.atLookup u join).hintIndex :=
    enterRoom_refused_hintIndex ((atLookup_refuses s r).trans hrefuse)
  obtain ⟨hints, n, heq⟩ := atLookup_eq u join s
  refine ⟨fun h => ?_, fun h => h.1.trans h.2⟩
  have hrooms : (s.atLookup u join).rooms = s.rooms := by rw [heq]
  have hroomAt : (s.atLookup u join).roomAt = s.roomAt := by rw [heq]
  have hclientAt : (s.atLookup u join).clientAt = s.clientAt := by rw [heq]
  exact ⟨⟨hrooms, hroomAt, hhints.symm.trans h.hintIndex, hclientAt⟩,
    ⟨h.rooms.trans hrooms.symm, h.roomAt.trans hroomAt.symm, hhints,
      h.clientAt.trans hclientAt.symm⟩⟩

theorem handleJoin_untouched_iff (hallows : allowsRoom ctx join.sessionId = true)
    (hrefused : turnedAway u s join) :
    Untouched s (s.handleJoin u g ctx join).1 ↔ ¬ (movesHint u s join ∨ marksRoom u s join) := by
  have hlook := SameRooms.atLookup (u := u) s join
  rcases handleJoin_allowed (u := u) (s := s) (g := g) hallows with
    ⟨hr, hmust, e, heq, -⟩ | ⟨r, hr, heq⟩ | ⟨hr, hmust, heq⟩
  · have hmarks : ¬ marksRoom u s join := by simp [marksRoom, hr, hmust]
    have hticked : Untouched s (s.atLookup u join).tick ↔ Untouched s (s.atLookup u join) :=
      ⟨fun h => ⟨h.rooms, h.roomAt, h.hintIndex, h.clientAt⟩, fun h => h.trans (.tick _)⟩
    rw [heq, hticked, atLookup_untouched_iff]
    simp [hmarks]
  · rw [turnedAway, hr] at hrefused
    have hrefused' := (atLookup_refuses (u := u) s r).trans hrefused
    have hmarks : marksRoom u s join ↔ declaresTooOld join = true ∧
        (s.atLookup u join).isFull r = false ∧
        (s.atLookup u join).ownedElsewhere r join.browserId = false ∧
        ((s.atLookup u join).roomAt r).encrypted = false := by
      obtain ⟨hints, n, hs⟩ := atLookup_eq u join s
      rw [marksRoom, hr, hs]
      rfl
    rw [heq, atLookup_enterRoom_untouched_iff hrefused, atLookup_untouched_iff,
      enterRoom_untouched_iff hrefused', hmarks, not_or]
  · -- the room is new, so the registry has changed
    rw [turnedAway, hr] at hrefused
    have hold : declaresTooOld join = true := hrefused.resolve_left (by simp [hmust])
    refine iff_of_false (fun h => ?_) (by simp [marksRoom, hr, hmust, hold])
    have hnew := getOrCreateRoom_new ((hlook.getRoomByID (s.joinTarget u join)).trans hr)
    have hrefuse := (newRoom_refuses join (by rw [hnew]) (by rw [hnew])
      (by rw [hnew])).trans hold
    have hreg := getOrCreateRoom_registered (s.atLookup u join) (s.joinTarget u join)
    have hsame : SameRooms ((s.atLookup u join).getOrCreateRoom (s.joinTarget u join)).2
        (s.handleJoin u g ctx join).1 := by
      rw [heq]
      exact enterRoom_refused hrefuse
    rw [← hsame.getRoomByID, getRoomByID, h.rooms] at hreg
    exact absurd (hr.symm.trans hreg) (by simp)

/-- A refused join changes nothing exactly when it neither moves a hint nor marks a room
before it is refused. -/
theorem refusedJoin_untouched_iff (u : UuidSource) (s : CollabService) (g : Goroutine) (ctx : Ctx)
    (actionId clientId : String) (join : JoinRoom) (pick : Nat) :
    ((s.handleAction u g ctx ⟨actionId, clientId, some (.join join)⟩ pick).2.refuses = true →
      Untouched s (s.handleAction u g ctx ⟨actionId, clientId, some (.join join)⟩ pick).1) ↔
    ¬ LeavesTrace u s ctx join := by
  simp only [handleAction, LeavesTrace]
  cases hallows : allowsRoom ctx join.sessionId with
  | false =>
    rw [handleJoin_forbidden hallows]
    exact iff_of_true (fun _ => .tick s) (by simp)
  | true =>
    rw [handleJoin_refuses_iff, hallows]
    by_cases hrefused : turnedAway u s join
    · simp [hrefused, handleJoin_untouched_iff hallows hrefused]
    · simp [hrefused]

/-- A rejoin to a room that is gone is refused, and its hint stays. -/
theorem lostRejoin_keepsHint :
    let join : CollabAction := ⟨"", "", some (.join
      { sessionId := "s1", clientHint := "h1", mustExist := true })⟩
    let after := (newCollabService 10).handleAction .unary (.direct 0) none join 0
    ¬ (after.2.refuses = true → Untouched (newCollabService 10) after.1) := by
  intro join after h
  have hhint := congrFun (h (by decide)).hintIndex "h1"
  exact absurd hhint (by decide)

/-! ### Leaks -/

/-- Every registered room has a client, and every hint points to a registered room. -/
structure NoLeaks (s : CollabService) : Prop where
  rooms : ∀ {sid r}, s.getRoomByID sid = some r → (s.roomAt r).clients ≠ []
  hints : ∀ {hint sid}, s.hintIndex hint = some sid → (s.getRoomByID sid).isSome = true

/-- A join that its token allows, for a session without a room: it must exist and comes
with a hint, or it declares the new room encrypted with too old a protocol. -/
def LeakyJoin (u : UuidSource) (s : CollabService) (ctx : Ctx) (join : JoinRoom) : Prop :=
  allowsRoom ctx join.sessionId = true ∧ s.getRoomByID (s.joinTarget u join) = none ∧
    ((join.mustExist = true ∧ join.clientHint ≠ "") ∨
      (join.mustExist = false ∧ declaresTooOld join = true))

/-- A request that is such a join. -/
def Leaks (u : UuidSource) (s : CollabService) : Request → Prop
  | .handle _ ctx { action := some (.join join), .. } _ => LeakyJoin u s ctx join
  | _ => False

theorem NoLeaks.of_sameRooms (h : SameRooms s s') (hhints : s'.hintIndex = s.hintIndex)
    (hs : NoLeaks s) : NoLeaks s' where
  rooms hr := by
    rw [h.clients]
    exact hs.rooms ((h.getRoomByID _).symm.trans hr)
  hints hhint := by
    rw [h.getRoomByID]
    exact hs.hints (hhints ▸ hhint)

/-! ### Who writes the hints -/

theorem deliver_hintIndex (g : Goroutine) (s : CollabService) (c : String) (e : CollabEvent) :
    (s.deliver g c e).hintIndex = s.hintIndex := by
  refine deliver_rule (I := fun s' => s'.hintIndex = s.hintIndex) ?_ ?_ id
  · unfold beginDeliver
    dsimp only
    split <;> rfl
  · intro s₁ s₂ k hput h
    rcases put?_eq_some hput with ⟨-, rfl⟩ | ⟨ch, -, rfl⟩ <;> exact h

theorem deliverAll_hintIndex (g : Goroutine) (s : CollabService)
    (targets : List (String × CollabEvent)) : (s.deliverAll g targets).hintIndex = s.hintIndex :=
  deliverAll_rule (I := fun s' => s'.hintIndex = s.hintIndex)
    (fun h => (deliver_hintIndex ..).trans h) rfl

theorem closeClients_hintIndex (s : CollabService) (cs : List String) :
    (cs.foldl closeClient s).hintIndex = s.hintIndex :=
  closeClients_rule (I := fun s' => s'.hintIndex = s.hintIndex) id (fun _ h => h) rfl

theorem noteRelayed_hintIndex (s : CollabService) (r : RoomRef) (action : Action) :
    (s.noteRelayed r action).hintIndex = s.hintIndex := by
  unfold noteRelayed
  split
  · split <;> rfl
  · rfl
  · rfl

theorem accept_hintIndex : (s.accept u g ctx join sid r).1.hintIndex = s.hintIndex :=
  deliverAll_hintIndex ..

theorem handlePresence_hintIndex (g : Goroutine) (c : String) (p : PresenceUpdate)
    (s : CollabService) : (s.handlePresence u g c p).1.hintIndex = s.hintIndex := by
  unfold handlePresence
  split
  · rfl
  · exact deliverAll_hintIndex ..

theorem handleBroadcast_hintIndex (g : Goroutine) (c : String) (action : Action)
    (s : CollabService) : (s.handleBroadcast u g c action).1.hintIndex = s.hintIndex := by
  unfold handleBroadcast
  split
  · rfl
  · rename_i r _
    have hnoted : (s.tick.noteRelayed r action).hintIndex = s.hintIndex :=
      noteRelayed_hintIndex ..
    split
    · rfl
    · split
      · exact (deliverAll_hintIndex ..).trans hnoted
      · dsimp only
        split <;> exact (deliverAll_hintIndex ..).trans hnoted

theorem deliverAppMessage_hintIndex (g : Goroutine) (sid c : String) (msg : AppMessage)
    (s : CollabService) : (s.deliverAppMessage u g sid c msg).1.hintIndex = s.hintIndex := by
  unfold deliverAppMessage
  split
  · rfl
  · dsimp only
    split <;> exact deliverAll_hintIndex ..

theorem receive_hintIndex (s : CollabService) (c : String) :
    (s.receive c).hintIndex = s.hintIndex := by
  unfold receive
  split
  · rfl
  · rename_i q s' h
    obtain ⟨ch, -, rfl⟩ := take?_eq_some h
    rfl

/-- `removeRoom` takes with the room every hint to it. -/
theorem removeRoom_hintIndex (hr : s.getRoomByID sid = some r) (hempty : (s.roomAt r).clients = [])
    {hint sid' : String} (h : (s.removeRoom sid).hintIndex hint = some sid') :
    s.hintIndex hint = some sid' ∧ sid' ≠ sid := by
  unfold getRoomByID at hr
  unfold removeRoom at h
  simp only [hr, isEmpty, hempty, List.isEmpty_nil, if_true] at h
  split at h
  · simp at h
  · rename_i hne
    exact ⟨h, fun heq => hne (heq ▸ h)⟩

/-! ### One request -/

/-- No leak but that room `r` may be empty. -/
structure NoLeaksBut (r : RoomRef) (s : CollabService) : Prop where
  rooms : ∀ {sid' r'}, s.getRoomByID sid' = some r' → r' ≠ r → (s.roomAt r').clients ≠ []
  hints : ∀ {hint sid'}, s.hintIndex hint = some sid' → (s.getRoomByID sid').isSome = true

theorem NoLeaks.but (hs : NoLeaks s) (r : RoomRef) : NoLeaksBut r s :=
  ⟨fun hr _ => hs.rooms hr, hs.hints⟩

theorem NoLeaksBut.of_sameRooms (h : SameRooms s s') (hhints : s'.hintIndex = s.hintIndex)
    (hs : NoLeaksBut r s) : NoLeaksBut r s' where
  rooms hr hne := by
    rw [h.clients]
    exact hs.rooms ((h.getRoomByID _).symm.trans hr) hne
  hints hhint := by
    rw [h.getRoomByID]
    exact hs.hints (hhints ▸ hhint)

/-- The room that may be empty is not. -/
theorem NoLeaksBut.noLeaks (hs : NoLeaksBut r s) (hr : (s.roomAt r).clients ≠ []) : NoLeaks s where
  rooms {sid' r'} hr' := by
    by_cases hrr : r' = r
    · exact hrr ▸ hr
    · exact hs.rooms hr' hrr
  hints := hs.hints

/-- The room that may be empty is, and goes. -/
theorem NoLeaksBut.removeRoom (hs : NoLeaksBut r s) (hr : s.getRoomByID sid = some r)
    (hsid : ∀ {sid'}, s.getRoomByID sid' = some r → sid' = sid)
    (hempty : (s.roomAt r).clients = []) : NoLeaks (s.removeRoom sid) := by
  rcases removeRoom_eq hr with ⟨h, -⟩ | ⟨-, hlook, hroom, -⟩
  · simp [isEmpty, hempty] at h
  refine ⟨fun {sid' r'} hr' => ?_, fun {hint sid'} hhint => ?_⟩
  · rw [hlook] at hr'
    split at hr'
    · simp at hr'
    · rename_i hne
      rw [hroom]
      refine hs.rooms hr' ?_
      rintro rfl
      exact hne (hsid hr')
  · obtain ⟨hhint, hne⟩ := removeRoom_hintIndex hr hempty hhint
    rw [hlook, if_neg hne]
    exact hs.hints hhint

theorem RoomsWF.sid_unique (hwf : RoomsWF u s) (hr : s.getRoomByID sid = some r) {sid' : String}
    (hr' : s.getRoomByID sid' = some r) : sid' = sid :=
  (hwf.registered hr').1.symm.trans (hwf.registered hr).1

theorem NoLeaksBut.announceLeft {c reason : String} {n : Nat} (hwf : RoomsWF u s)
    (hs : NoLeaksBut r s) (hr : s.getRoomByID sid = some r) (hn : n = s.clientCount r) :
    NoLeaks (s.announceLeft u g c reason r n).1 := by
  have hsame : SameRooms s (s.tick.broadcastToAll g r (peerLeftEvent (s.uuid u) c reason n)) :=
    (SameRooms.tick s).trans (SameRooms.deliverAll g _ _)
  have hs₁ := hs.of_sameRooms hsame (deliverAll_hintIndex ..)
  have hwf₁ := hwf.of_sameRooms hsame
  have hr₁ : (s.tick.broadcastToAll g r (peerLeftEvent (s.uuid u) c reason n)).getRoomByID sid =
      some r := (hsame.getRoomByID sid).trans hr
  unfold CollabService.announceLeft
  dsimp only
  refine NoLeaks.of_sameRooms (SameRooms.tick _) rfl ?_
  split
  · rename_i hzero
    rw [(hwf₁.registered hr₁).1]
    refine hs₁.removeRoom hr₁ (fun hr' => hwf₁.sid_unique hr₁ hr') ?_
    rw [hsame.clients]
    exact List.eq_nil_of_length_eq_zero (hn.symm.trans hzero)
  · rename_i hpos
    refine hs₁.noLeaks ?_
    rw [hsame.clients]
    intro hnil
    exact hpos (hn.trans (congrArg List.length hnil))

/-- Whatever happens to room `r` itself. -/
theorem NoLeaksBut.modifyRoom (hs : NoLeaksBut r s) (f : CollabRoom → CollabRoom) :
    NoLeaksBut r (s.modifyRoom r f) where
  rooms hr hne := by
    rw [modifyRoom_roomAt_of_ne s f hne]
    exact hs.rooms hr hne
  hints := hs.hints

theorem NoLeaksBut.endRoom {c : String} (hwf : RoomsWF u s) (hs : NoLeaksBut r s)
    (hr : s.getRoomByID sid = some r) : NoLeaks (s.endRoom u g c r).1 := by
  unfold CollabService.endRoom closeAllClients
  dsimp only
  generalize hs₀ : s.tick.broadcastToAll g r (ownerDisconnectedEvent (s.uuid u) c) = s₀
  have hsame₀ : SameRooms s s₀ := hs₀ ▸ (SameRooms.tick s).trans (SameRooms.deliverAll g _ _)
  have hhints₀ : s₀.hintIndex = s.hintIndex := hs₀ ▸ deliverAll_hintIndex ..
  generalize hs₁ : (s₀.roomAt r).clients.foldl closeClient s₀ = s₁
  have hsame : SameRooms s s₁ := hsame₀.trans (hs₁ ▸ SameRooms.closeClients _ _)
  have hhints : s₁.hintIndex = s.hintIndex := (hs₁ ▸ closeClients_hintIndex ..).trans hhints₀
  have hr₁ : s₁.getRoomByID sid = some r := (hsame.getRoomByID sid).trans hr
  have hsid : (s₁.roomAt r).sessionId = sid := (hsame.sessionId r).trans (hwf.registered hr).1
  have hbut := (hs.of_sameRooms hsame hhints).modifyRoom fun room => { room with clients := [] }
  refine NoLeaks.of_sameRooms (SameRooms.tick _) rfl ?_
  rw [modifyRoom_roomAt_self]
  dsimp only
  rw [hsid]
  refine hbut.removeRoom hr₁ (fun {sid'} hr' => hwf.sid_unique hr ?_) (by simp)
  exact (hsame.getRoomByID sid').symm.trans hr'

theorem NoLeaks.handleLeave {c : String} {leave : LeaveRoom} {pick : Nat} (hwf : RoomsWF u s)
    (hs : NoLeaks s) : NoLeaks (s.handleLeave u g c leave pick).1 := by
  cases hfind : s.findRoomForClient c with
  | none =>
    unfold CollabService.handleLeave
    rw [hfind]
    exact hs
  | some r =>
    obtain ⟨⟨sid, hr⟩, -⟩ := findRoomForClient_eq_some hfind
    have hwf₁ : RoomsWF u (s.removeLeft r c) := hwf.removeLeft
    have hbut := (hs.but r).modifyRoom fun room => { room with clients := room.clients.erase c }
    have hs₁ : NoLeaksBut r (s.removeLeft r c) := ⟨hbut.rooms, hbut.hints⟩
    cases handleLeave_cases (u := u) (g := g) leave pick hfind with
    | plain _ heq =>
      rw [heq]
      exact hs₁.announceLeft hwf₁ hr rfl
    | ended _ _ _ _ heq =>
      rw [heq]
      exact hs₁.endRoom hwf₁ hr
    | moved pick successor _ _ _ heq =>
      rw [heq]
      have hwf₂ := hwf₁.transferOwner (r := r) successor
      have hs₂ : NoLeaksBut r ((s.removeLeft r c).transferOwner r successor) :=
        NoLeaksBut.modifyRoom (s := (s.removeLeft r c).modifyClient successor _)
          ⟨hs₁.rooms, hs₁.hints⟩ _
      generalize hs₃ : ((s.removeLeft r c).transferOwner r successor).tick.broadcastToAll g r _ = s₃
      have hsame : SameRooms ((s.removeLeft r c).transferOwner r successor) s₃ :=
        hs₃ ▸ (SameRooms.tick _).trans (SameRooms.deliverAll g _ _)
      refine (hs₂.of_sameRooms hsame (hs₃ ▸ deliverAll_hintIndex ..)).announceLeft
        (hwf₂.of_sameRooms hsame) ((hsame.getRoomByID sid).trans hr) ?_
      rw [clientCount, clientCount, hsame.clients, (transferOwner_clients _ _ _).1]

/-- A join that no check refuses puts a client in the room. -/
theorem NoLeaksBut.accepted (hs : NoLeaksBut r s) (haccept : s.refuses join r = false) :
    NoLeaks (s.enterRoom u g ctx join sid r).1 := by
  rw [enterRoom_accepted haccept]
  have hdeclared := SameRooms.declareEncrypted s r join
  have hhints : (s.declareEncrypted r join).hintIndex = s.hintIndex := by
    unfold declareEncrypted
    split <;> rfl
  have hs₁ := hs.of_sameRooms hdeclared hhints
  generalize s.declareEncrypted r join = s₁ at hs₁
  refine NoLeaks.of_sameRooms (SameRooms.accept s₁) accept_hintIndex ?_
  have hbut : NoLeaksBut r (s₁.enrolled u g ctx join sid r) :=
    ⟨fun hr hne => by rw [enrolled_roomAt_of_ne s₁ hne]; exact hs₁.rooms hr hne, hs₁.hints⟩
  refine hbut.noLeaks ?_
  rw [enrolled_roomAt_self]
  exact List.ne_nil_of_mem (List.mem_insert_self)

/-- The hint of a join points to a room once the session has one. -/
theorem NoLeaks.atLookup (hs : NoLeaks s) (hr : s.getRoomByID (s.joinTarget u join) = some r) :
    NoLeaks (s.atLookup u join) := by
  have hlook := SameRooms.atLookup (u := u) s join
  refine ⟨fun hr' => ?_, fun {hint sid'} hhint => ?_⟩
  · rw [hlook.clients]
    exact hs.rooms ((hlook.getRoomByID _).symm.trans hr')
  · rw [hlook.getRoomByID]
    rw [atLookup_hintIndex] at hhint
    split at hhint
    · by_cases hh : hint = join.clientHint
      · subst hh
        rw [Function.update_self] at hhint
        rw [← Option.some.inj hhint, hr]
        rfl
      · rw [Function.update_of_ne hh] at hhint
        exact hs.hints hhint
    · exact hs.hints hhint

theorem getOrCreateRoom_hintIndex (s : CollabService) (sid : String) :
    (s.getOrCreateRoom sid).2.hintIndex = s.hintIndex := by
  unfold getOrCreateRoom
  split <;> rfl

/-- A join that creates its room has yet to put a client there; its hint points to it. -/
theorem NoLeaks.created (hs : NoLeaks s) (hr : s.getRoomByID (s.joinTarget u join) = none) :
    NoLeaksBut ((s.atLookup u join).getOrCreateRoom (s.joinTarget u join)).1
      ((s.atLookup u join).getOrCreateRoom (s.joinTarget u join)).2 := by
  have hlook := SameRooms.atLookup (u := u) s join
  rcases getOrCreateRoom_cases (s.atLookup u join) (s.joinTarget u join) with
    ⟨r, hr', -⟩ | ⟨-, hfst, hreg, hroom, -⟩
  · rw [hlook.getRoomByID, hr] at hr'
    exact absurd hr' (by simp)
  refine ⟨fun {sid' r'} hr' hne => ?_, fun {hint sid'} hhint => ?_⟩
  · rw [hfst] at hne
    rw [hreg] at hr'
    split at hr'
    · exact absurd (Option.some.inj hr').symm hne
    · rw [hroom, Function.update_of_ne hne, hlook.clients]
      exact hs.rooms ((hlook.getRoomByID _).symm.trans hr')
  · rw [hreg]
    split
    · rfl
    · rename_i hne
      rw [hlook.getRoomByID]
      rw [getOrCreateRoom_hintIndex, atLookup_hintIndex] at hhint
      split at hhint
      · by_cases hh : hint = join.clientHint
        · subst hh
          rw [Function.update_self] at hhint
          exact absurd (Option.some.inj hhint).symm hne
        · rw [Function.update_of_ne hh] at hhint
          exact hs.hints hhint
      · exact hs.hints hhint

/-- A join leaks exactly when it is one of the two kinds that do. -/
theorem noLeaks_handleJoin_iff (hs : NoLeaks s) :
    NoLeaks (s.handleJoin u g ctx join).1 ↔ ¬ LeakyJoin u s ctx join := by
  cases hallows : allowsRoom ctx join.sessionId with
  | false =>
    rw [handleJoin_forbidden hallows]
    exact iff_of_true (hs.of_sameRooms (SameRooms.tick s) rfl) (by simp [LeakyJoin, hallows])
  | true =>
    have hlook := SameRooms.atLookup (u := u) s join
    rcases handleJoin_allowed (u := u) (s := s) (g := g) hallows with
      ⟨hr, hmust, e, heq, -⟩ | ⟨r, hr, heq⟩ | ⟨hr, hmust, heq⟩
    · rw [heq]
      by_cases hhint : join.clientHint = ""
      · refine iff_of_true ?_ (by simp [LeakyJoin, hmust, hhint])
        have hhints : (s.atLookup u join).hintIndex = s.hintIndex := by
          rw [atLookup_hintIndex, if_neg (by simp [hhint])]
        exact hs.of_sameRooms (hlook.trans (SameRooms.tick _)) hhints
      · -- the hint points to a session without a room
        refine iff_of_false (fun h => ?_) (by simp [LeakyJoin, hallows, hr, hmust, hhint])
        have hleak := @NoLeaks.hints _ h join.clientHint (s.joinTarget u join) ?_
        · rw [show ((s.atLookup u join).tick).getRoomByID (s.joinTarget u join) = none from
            (hlook.getRoomByID _).trans hr] at hleak
          simp at hleak
        · show (s.atLookup u join).hintIndex join.clientHint = _
          rw [atLookup_hintIndex, if_pos hhint, Function.update_self]
    · rw [heq]
      refine iff_of_true ?_ (by simp [LeakyJoin, hr])
      have hs₁ := hs.atLookup hr
      cases hrefuse : (s.atLookup u join).refuses join r with
      | true =>
        exact hs₁.of_sameRooms (enterRoom_refused hrefuse) (enterRoom_refused_hintIndex hrefuse)
      | false => exact (hs₁.but r).accepted hrefuse
    · rw [heq]
      -- a new room is empty, unowned and unencrypted, so only the version check can refuse
      have hnew := getOrCreateRoom_new ((hlook.getRoomByID (s.joinTarget u join)).trans hr)
      have hrefuse := newRoom_refuses join (by rw [hnew]) (by rw [hnew]) (by rw [hnew])
      cases hold : declaresTooOld join with
      | true =>
        refine iff_of_false (fun h => ?_) (by simp [LeakyJoin, hallows, hr, hmust, hold])
        have hsame : SameRooms ((s.atLookup u join).getOrCreateRoom (s.joinTarget u join)).2
            (((s.atLookup u join).getOrCreateRoom (s.joinTarget u join)).2.enterRoom u g ctx join
              (s.joinTarget u join)
              ((s.atLookup u join).getOrCreateRoom (s.joinTarget u join)).1).1 :=
          enterRoom_refused (hrefuse.trans hold)
        have hempty := h.rooms ((hsame.getRoomByID _).trans (getOrCreateRoom_registered _ _))
        rw [hsame.clients, hnew] at hempty
        exact hempty rfl
      | false =>
        refine iff_of_true ?_ (by simp [LeakyJoin, hmust, hold])
        exact (hs.created hr).accepted (hrefuse.trans hold)

/-- Every other request is harmless. -/
theorem noLeaks_serve_iff (hwf : RoomsWF u s) (hs : NoLeaks s) (req : Request) :
    NoLeaks (s.serve u req) ↔ ¬ Leaks u s req := by
  cases req with
  | receive c =>
    exact iff_of_true (hs.of_sameRooms (SameRooms.receive s c) (receive_hintIndex s c)) id
  | deliverAppMessage g sid c msg =>
    exact iff_of_true (hs.of_sameRooms (SameRooms.deliverAppMessage g sid c msg s)
      (deliverAppMessage_hintIndex g sid c msg s)) id
  | handle g ctx a pick =>
    obtain ⟨actionId, clientId, action⟩ := a
    cases action with
    | none => exact iff_of_true hs id
    | some action =>
      cases action with
      | join join => exact noLeaks_handleJoin_iff hs
      | leave leave => exact iff_of_true (hs.handleLeave hwf) id
      | presence presence =>
        exact iff_of_true (hs.of_sameRooms (SameRooms.handlePresence g _ presence s)
          (handlePresence_hintIndex g _ presence s)) id
      | sceneUpdate _ | cursorUpdate _ | textUpdate _ | sceneInitRequest | sceneInitResponse _
      | credentialsChanged _ | titleChanged _ | appMessage _ =>
        exact iff_of_true (hs.of_sameRooms (SameRooms.handleBroadcast g _ _ s)
          (handleBroadcast_hintIndex g _ _ s)) id

/-! ### Every run -/

theorem NoLeaks.new (maxPeers : Int) : NoLeaks (newCollabService maxPeers) :=
  ⟨fun hr => by simp [newCollabService, getRoomByID] at hr,
    fun hhint => by simp [newCollabService] at hhint⟩

/-- Without leaks, a service whose clients have all left is as good as new. -/
theorem NoLeaks.empty (hs : NoLeaks s)
    (hleft : ∀ sid r, s.getRoomByID sid = some r → (s.roomAt r).clients = []) :
    s.rooms = ∅ ∧ ∀ hint, s.hintIndex hint = none := by
  have hnone : ∀ sid, s.getRoomByID sid = none := by
    intro sid
    cases hr : s.getRoomByID sid with
    | none => rfl
    | some r => exact absurd (hleft sid r hr) (hs.rooms hr)
  refine ⟨?_, fun hint => ?_⟩
  · refine AList.ext (List.eq_nil_iff_forall_not_mem.mpr ?_)
    rintro ⟨sid, r⟩ hmem
    have := AList.mem_lookup_iff.mpr hmem
    rw [show s.rooms.lookup sid = none from hnone sid] at this
    simp at this
  · cases hhint : s.hintIndex hint with
    | none => rfl
    | some sid =>
      have := hs.hints hhint
      rw [hnone sid] at this
      simp at this

/-- No room and no hint leaks in any state of a run exactly when none of its joins is one
of the two kinds that leak. Then both maps are empty whenever every client has left. -/
theorem noLeaks_run_iff (u : UuidSource) (maxPeers : Int) (reqs : List Request) :
    (∀ pre, pre <+: reqs →
      NoLeaks (serveAll u (newCollabService maxPeers) pre) ∧
      ((∀ sid r, (serveAll u (newCollabService maxPeers) pre).getRoomByID sid = some r →
          ((serveAll u (newCollabService maxPeers) pre).roomAt r).clients = []) →
        (serveAll u (newCollabService maxPeers) pre).rooms = ∅ ∧
        ∀ hint, (serveAll u (newCollabService maxPeers) pre).hintIndex hint = none)) ↔
    ∀ pre req, pre ++ [req] <+: reqs →
      ¬ Leaks u (serveAll u (newCollabService maxPeers) pre) req := by
  have hstep : ∀ pre req, NoLeaks (serveAll u (newCollabService maxPeers) pre) →
      (NoLeaks (serveAll u (newCollabService maxPeers) (pre ++ [req])) ↔
        ¬ Leaks u (serveAll u (newCollabService maxPeers) pre) req) := by
    intro pre req hs
    rw [serveAll, List.foldl_append]
    exact noLeaks_serve_iff (RoomInv.serveAll maxPeers pre).wf hs req
  refine Iff.trans ?_ (History.forall_prefix_iff
    (P := fun pre => NoLeaks (serveAll u (newCollabService maxPeers) pre)) (.new maxPeers) hstep)
  exact forall₂_congr fun pre _ => ⟨And.left, fun hs => ⟨hs, hs.empty⟩⟩

/-- An owner that declares its new room encrypted with protocol version 1 is refused, and
the room stays without a client. -/
theorem refusedOwner_leavesRoom :
    ¬ NoLeaks (serveAll .unary (newCollabService 10) [.handle (.direct 0) none ⟨"", "",
      some (.join { sessionId := "s1", isOwner := true, encrypted := true, protocolVersion := 1 })⟩
      0]) := by
  intro h
  exact @NoLeaks.rooms _ h "s1" 0 (by decide) (by decide)

end CollabService

end MassRelay

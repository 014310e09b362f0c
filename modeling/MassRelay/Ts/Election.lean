import MassRelay.Lib.Machine
import MassRelay.Ts.Effects

/-!
# MassRelay.Ts.Election

Who answers a request for the scene.

An engine answers when it is the owner or when its id is the lowest of those that could answer.
So in a room that agrees on its members, the one with the lowest id always answers, and an owner
that is not the one answers too. Nobody looks at `isInitialized`. Hence there is exactly one
answer, from an engine that has the scene if any has, exactly when `Elects` holds of the room.
-/

namespace MassRelay.Ts

namespace CollabEngine

variable {doc : Document} {e : CollabEngine} {eventId requester cipher : String}

/-- The numbers of the calls that wait were all given out. -/
def Fresh (e : CollabEngine) : Prop := ∀ call ∈ e.pending, call.1 < e.started

def responses (log : List (Option Nat × Effect)) : List SceneInitResponse :=
  log.filterMap fun
    | (_, .send (.sceneInitResponse response)) => some response
    | _ => none

def request (eventId requester : String) : CollabEvent :=
  { eventId, fromClientId := requester, event := .sceneInitRequest }

/-- The engine after a request, once its promise, if it waits for one, has resolved. -/
def asked (doc : Document) (cipher : String) (event : CollabEvent) (e : CollabEngine) :
    CollabEngine :=
  ((e.receive doc event).settle e.started (some cipher)).getD (e.receive doc event)

/-- The engine sends a response. -/
def Responds (doc : Document) (cipher : String) (event : CollabEvent) (e : CollabEngine) : Prop :=
  (responses e.log).length < (responses (e.asked doc cipher event).log).length

@[simp] theorem responses_append (log log' : List (Option Nat × Effect)) :
    responses (log ++ log') = responses log ++ responses log' := List.filterMap_append

theorem receive_request : e.receive doc (request eventId requester) =
    (e.handleSyncEvent doc (request eventId requester)).hear (request eventId requester) := rfl

theorem syncEvent_request {n adapter : Nat} (hadapter : e.adapter = some adapter)
    (hname : requester ≠ "") : e.syncEvent doc n (request eventId requester) =
      if e.shouldRespond requester then
        if e.encryptionKey.isSome then
          (e.record n (.call adapter .getSceneSnapshot)).await n .snapshot
        else (e.record n (.call adapter .getSceneSnapshot)).trySend n
          (.sceneInitResponse { payload := doc.getSceneSnapshot e })
      else e := by
  simp only [syncEvent, hadapter, request, ne_eq, hname, not_false_eq_true, decide_true,
    Bool.true_and]
  rfl

theorem Fresh.lookup_started (h : e.Fresh) : e.pending.lookup e.started = none := by
  rw [List.lookup_eq_none_iff]
  intro call hcall
  have := h call hcall
  rw [bne_iff_ne]
  omega

theorem responses_trySend (hup : e.client.isConnected = true) (hgrpc : e.client.grpc.isSome = true)
    (origin : Option Nat) (response : SceneInitResponse) :
    responses (e.trySend origin (.sceneInitResponse response)).log =
      responses e.log ++ [response] := by
  rw [trySend, send_eq_some.mpr ⟨hup, hgrpc, rfl⟩, Option.getD_some]
  exact responses_append _ _

/-- A connected engine sends a response when it should. -/
theorem responds_iff (hup : e.client.isConnected = true) (hgrpc : e.client.grpc.isSome = true)
    (hadapter : e.adapter.isSome = true) (hfresh : e.Fresh) (hname : requester ≠ "") :
    e.Responds doc cipher (request eventId requester) ↔ e.shouldRespond requester = true := by
  obtain ⟨adapter, hadapter⟩ := Option.isSome_iff_exists.mp hadapter
  have hlookup := hfresh.lookup_started
  have hrespond : e.begin.shouldRespond requester = e.shouldRespond requester := rfl
  unfold Responds asked
  rw [receive_request, handleSyncEvent, syncEvent_request (e := e.begin) hadapter hname, hrespond]
  cases hshould : e.shouldRespond requester with
  | false => simp [settle, hear, begin, hlookup]
  | true =>
    cases hkey : e.encryptionKey with
    | none =>
      simp only [settle, hear, ↓reduceIte, begin, hkey, Option.isSome_none, Bool.false_eq_true,
        trySend, CollabEngine.send, record, List.append_assoc, List.cons_append, List.nil_append,
        CollabClient.send, hup, hgrpc, Bool.and_self, Option.map_some, Option.getD_some, hlookup,
        Option.map_none, Option.getD_none, responses_append, List.length_append,
        Nat.lt_add_right_iff_pos, iff_true]
      exact Nat.succ_pos _
    | some key =>
      simp only [settle, resume, hear, ↓reduceIte, begin, hkey, Option.isSome_some, await, record,
        List.lookup_append, hlookup, List.lookup_cons_self, Option.or_some, Option.getD_none,
        Option.map_some, Option.getD_some, iff_true]
      rw [responses_trySend (by exact hup) (by exact hgrpc)]
      simp

end CollabEngine

open CollabEngine

/-- Which ids there are decides on the lowest of them, and not their order. -/
theorem CollabEngine.lowest_congr {l l' : List String} (h : ∀ id, id ∈ l ↔ id ∈ l') :
    lowest l = lowest l' := by
  refine Option.ext fun id => ?_
  rw [lowest, lowest, Utf16.head?_sort, Utf16.head?_sort, h]
  simp only [h]

/-- A room whose engines are connected with an adapter, have its members for their peers and
agree on the owner. -/
structure EngineRoom where
  members : List String
  engine : String → CollabEngine
  named : ∀ id ∈ members, id ≠ ""
  connected : ∀ id ∈ members, (engine id).client.isConnected = true
  grpc : ∀ id ∈ members, (engine id).client.grpc.isSome = true
  adapter : ∀ id ∈ members, (engine id).adapter.isSome = true
  clientId : ∀ id ∈ members, (engine id).state.clientId = id
  peers : ∀ id ∈ members, ∀ peer, peer ∈ (engine id).state.peers ↔ peer ∈ members
  owner : ∀ id ∈ members, ∀ other ∈ members, (engine id).state.isOwner = true →
    (engine other).state.isOwner = true → id = other
  fresh : ∀ id ∈ members, (engine id).Fresh

namespace EngineRoom

variable {room : EngineRoom} {doc : String → Document} {cipher : String → String}
  {eventId requester id : String}

def others (room : EngineRoom) (requester : String) : List String :=
  room.members.filter (· ≠ requester)

/-- A member other than the requester that sends a response. -/
def Answers (room : EngineRoom) (doc : String → Document) (cipher : String → String)
    (eventId requester id : String) : Prop :=
  id ∈ room.others requester ∧
    (room.engine id).Responds (doc id) (cipher id) (request eventId requester)

/-- One member answers, and one that is initialized if any is. -/
def OneAnswer (room : EngineRoom) (doc : String → Document) (cipher : String → String)
    (eventId requester : String) : Prop :=
  ∃ id, room.Answers doc cipher eventId requester id ∧
    (∀ other, room.Answers doc cipher eventId requester other → other = id) ∧
    ((room.engine id).state.isInitialized = true ∨
      ∀ other ∈ room.others requester, (room.engine other).state.isInitialized = false)

/-- Of the others, the one with the lowest id is the owner if one of them is, and is initialized
if one of them is. -/
def Elects (room : EngineRoom) (requester : String) : Prop :=
  ∀ id, lowest (room.others requester) = some id →
    (∀ owner ∈ room.others requester, (room.engine owner).state.isOwner = true → owner = id) ∧
    ((room.engine id).state.isInitialized = true ∨
      ∀ other ∈ room.others requester, (room.engine other).state.isInitialized = false)

theorem mem_others : id ∈ room.others requester ↔ id ∈ room.members ∧ id ≠ requester := by
  simp [others]

theorem shouldRespond_iff (hid : id ∈ room.members) :
    (room.engine id).shouldRespond requester = true ↔
      (room.engine id).state.isOwner = true ∨ lowest (room.others requester) = some id := by
  have hlowest : lowest ((room.engine id).state.peers.keys.filter (· ≠ requester)) =
      lowest (room.others requester) := by
    refine lowest_congr fun peer => ?_
    have hpeers := room.peers id hid peer
    rw [AList.mem_keys] at hpeers
    simp [others, hpeers]
  simp only [shouldRespond, room.clientId id hid, hlowest, room.named id hid, ne_eq,
    not_false_eq_true, decide_true, Bool.true_and, Bool.or_eq_true, decide_eq_true_eq]

theorem answers_iff (hrequester : requester ∈ room.members) :
    room.Answers doc cipher eventId requester id ↔ id ∈ room.others requester ∧
      ((room.engine id).state.isOwner = true ∨ lowest (room.others requester) = some id) := by
  refine and_congr_right fun hother => ?_
  have hid := (mem_others.mp hother).1
  rw [responds_iff (room.connected id hid) (room.grpc id hid) (room.adapter id hid)
    (room.fresh id hid) (room.named requester hrequester), shouldRespond_iff hid]

theorem exists_lowest (hothers : ∃ id ∈ room.members, id ≠ requester) :
    ∃ id ∈ room.others requester, lowest (room.others requester) = some id := by
  obtain ⟨other, hother⟩ := hothers
  have hmem : other ∈ Utf16.sort (room.others requester) :=
    (List.mergeSort_perm _ _).mem_iff.mpr (mem_others.mpr hother)
  cases hlowest : lowest (room.others requester) with
  | none =>
    rw [lowest, List.head?_eq_none_iff] at hlowest
    simp [hlowest] at hmem
  | some id => exact ⟨id, (Utf16.head?_sort.mp hlowest).1, rfl⟩

/-- In a room of two or more, exactly one member answers a request, and one that is initialized
if any is, when the lowest of the others outranks nobody. -/
theorem oneAnswer_iff (room : EngineRoom) (doc : String → Document) (cipher : String → String)
    (eventId requester : String) (hrequester : requester ∈ room.members)
    (hothers : ∃ id ∈ room.members, id ≠ requester) :
    room.OneAnswer doc cipher eventId requester ↔ room.Elects requester := by
  obtain ⟨low, hlow, hlowest⟩ := exists_lowest hothers
  have hanswers : room.Answers doc cipher eventId requester low :=
    (answers_iff hrequester).mpr ⟨hlow, Or.inr hlowest⟩
  constructor
  · rintro ⟨id, -, hone, hinit⟩ low' hlowest'
    obtain rfl := Option.some.inj (hlowest.symm.trans hlowest')
    obtain rfl := hone low hanswers
    refine ⟨fun owner howner hisOwner => ?_, hinit⟩
    exact hone owner ((answers_iff hrequester).mpr ⟨howner, Or.inl hisOwner⟩)
  · intro helects
    obtain ⟨howner, hinit⟩ := helects low hlowest
    refine ⟨low, hanswers, fun other hother => ?_, hinit⟩
    obtain ⟨hmem, hisOwner | hother'⟩ := (answers_iff hrequester).mp hother
    · exact howner other hmem hisOwner
    · exact (Option.some.inj (hlowest.symm.trans hother')).symm

/-- An engine that joined a room with these peers in it, and was told of those that came later. -/
def seated (clientId ownerClientId : String) (peers later : List String) : CollabEngine :=
  (Machine.exec (step .blank) (start {} 5 (some 0))
    (.call (.connect (plainParams (clientId = ownerClientId))) :: .job (.opened 0) ::
      .job (.message 0 (joinedAs clientId ownerClientId peers)) ::
      later.map fun peer => .job (.message 0 (peerJoinedEvent peer)))).getD (start {} 5 none)

def ownedEngine (clientId : String) : CollabEngine :=
  if clientId = "a" then seated "a" "b" ["b"] ["c"]
  else if clientId = "b" then seated "b" "b" [] ["a", "c"]
  else seated "c" "b" ["a", "b"] []

/-- The owner `b` opened the room, then `a` came, and then `c`. -/
def ownedRoom : EngineRoom where
  members := ["a", "b", "c"]
  engine := ownedEngine
  named := by decide
  connected := by decide +kernel
  grpc := by decide +kernel
  adapter := by decide +kernel
  clientId := by decide +kernel
  peers := by
    have hkeys : ∀ id ∈ ["a", "b", "c"],
        (ownedEngine id).state.peers.keys.Perm ["a", "b", "c"] := by decide +kernel
    intro id hid peer
    rw [AList.mem_keys, (hkeys id hid).mem_iff]
  owner := by decide +kernel
  fresh := by unfold Fresh; decide +kernel

/-- The owner asks, and the lowest of the others answers. -/
theorem oneAnswer_asked_by_owner :
    "b" ∈ ownedRoom.members ∧ (∃ id ∈ ownedRoom.members, id ≠ "b") ∧ ownedRoom.Elects "b" ∧
      ownedRoom.OneAnswer (fun _ => .blank) (fun _ => "") "e" "b" := by
  have hmem : "b" ∈ ownedRoom.members := by decide
  have hothers : ∃ id ∈ ownedRoom.members, id ≠ "b" := ⟨"a", by decide, by decide⟩
  have hlowest : lowest (ownedRoom.others "b") = some "a" := Utf16.head?_sort.mpr (by decide)
  have helects : ownedRoom.Elects "b" := by
    intro id hid
    obtain rfl := Option.some.inj (hlowest.symm.trans hid)
    decide +kernel
  exact ⟨hmem, hothers, helects, (oneAnswer_iff _ _ _ _ _ hmem hothers).mpr helects⟩

/-- The last one to come asks, and both the owner and the lowest answer. -/
theorem two_answers : ¬ ∀ (room : EngineRoom) doc cipher eventId requester,
    requester ∈ room.members → (∃ id ∈ room.members, id ≠ requester) →
    room.OneAnswer doc cipher eventId requester := by
  intro h
  obtain ⟨id, -, hone, -⟩ := h ownedRoom (fun _ => .blank) (fun _ => "") "e" "c" (by decide)
    ⟨"a", by decide, by decide⟩
  have hlow := hone "a" ((answers_iff (by decide)).mpr
    ⟨by decide, Or.inr (Utf16.head?_sort.mpr (by decide))⟩)
  have howner := hone "b" ((answers_iff (by decide)).mpr
    ⟨by decide, Or.inl (by decide +kernel)⟩)
  exact absurd (hlow.trans howner.symm) (by decide)

end EngineRoom

end MassRelay.Ts

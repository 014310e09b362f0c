import MassRelay.Lib.History
import MassRelay.Services.Welcome

/-!
# MassRelay.Services.Encryption

Who is in an encrypted room.

A join is held against the encryption flag once, when it comes. The flag goes up later too,
when an owner joins who declares the room encrypted, and nobody looks at the clients that are
there then. So an encrypted room has no client with too old a protocol exactly as long as no
owner declares it over such a client (`capable_run_iff`), and it does not help that the owner
is turned away itself.
-/

namespace MassRelay

namespace CollabService

variable {u : UuidSource} {s s' : CollabService} {g : Goroutine} {ctx : Ctx} {join : JoinRoom}
variable {r : RoomRef} {sid c : String} {req : Request}

/-- Every client of an encrypted room joined with a protocol that knows encryption. Each of
them has one join among the answers (`Recorded`). -/
def Capable (s : CollabService) (ws : List (JoinRoom × RoomJoined)) : Prop :=
  ∀ p ∈ ws, ∀ r, p.2.clientId ∈ (s.roomAt r).clients → (s.roomAt r).encrypted = true →
    2 ≤ p.1.protocolVersion

/-- A join that declares a room encrypted with a client in it whose protocol is too old. -/
def DeclaresOverOld (u : UuidSource) (s : CollabService) (ws : List (JoinRoom × RoomJoined)) :
    Request → Prop
  | .handle _ ctx { action := some (.join join), .. } _ =>
    allowsRoom ctx join.sessionId = true ∧
      ∃ r, s.getRoomByID (s.joinTarget u join) = some r ∧ s.declares join r = true ∧
        ∃ p ∈ ws, p.2.clientId ∈ (s.roomAt r).clients ∧ p.1.protocolVersion < 2
  | _ => False

/-- A declaration counts whether or not its join is refused in the end. -/
theorem handleJoin_declares (g : Goroutine) (hwf : RoomsWF u s) (hopen : ChansOpen s)
    (hallows : allowsRoom ctx join.sessionId = true)
    (hr : s.getRoomByID (s.joinTarget u join) = some r) (hdeclares : s.declares join r = true)
    (hc : c ∈ (s.roomAt r).clients) :
    c ∈ ((s.handleJoin u g ctx join).1.roomAt r).clients ∧
      ((s.handleJoin u g ctx join).1.roomAt r).encrypted = true := by
  change c ∈ ((s.handleJoin u g ctx join).1.view r).clients ∧
    ((s.handleJoin u g ctx join).1.view r).encrypted = true
  cases hrefuse : s.refuses join r with
  | true =>
    rw [(handleJoin_declared g hallows hr hrefuse hdeclares).view]
    exact ⟨hc, rfl⟩
  | false =>
    obtain ⟨peer, -, -, hdoes⟩ := handleJoin_joined g hwf hopen hallows hr hrefuse
    rw [hdoes.view]
    simp only [declares, Bool.and_eq_true] at hdeclares
    refine ⟨List.mem_insert_of_mem hc, ?_⟩
    simp [Happening.apply, hdeclares.1.1.1, hdeclares.1.1.2]

theorem declares_of_accepted (haccept : s.refuses join r = false) (howner : join.isOwner = true)
    (henc : join.encrypted = true) : s.declares join r = true := by
  simp only [refuses, howner, Bool.true_and, Bool.or_eq_false_iff] at haccept
  simp [declares, howner, henc, haccept.1.1, haccept.1.2]

/-- The flag goes up only when an owner's join declares it. -/
theorem apply_turnsOn {h : Happening} {v : RoomView} (hoff : v.encrypted = false)
    (hon : (h.apply v).encrypted = true) : h = .declared ∨ ∃ peer join, h = .joined peer join ∧
      join.isOwner = true ∧ join.encrypted = true := by
  cases h with
  | messages _ | left _ _ | moved _ _ _ | ended _ => simp [Happening.apply, hoff] at hon
  | relayed x action => cases action <;> simp [Happening.apply, hoff] at hon
  | declared => exact Or.inl rfl
  | joined peer join =>
    simp only [Happening.apply, hoff, Bool.or_false, Bool.and_eq_true] at hon
    exact Or.inr ⟨peer, join, rfl, hon⟩

/-- What puts a client with an old protocol into an encrypted room is a declaration. -/
theorem Capable.serve_iff {ws : List (JoinRoom × RoomJoined)} (hs : RoomInv u s)
    (hopen : ChansOpen s) (hws : Recorded u s ws) (hcapable : Capable s ws) (req : Request) :
    Capable (s.serve u req) (ws ++ (s.joinAnswer u req).toList) ↔ ¬ DeclaresOverOld u s ws req := by
  constructor
  · intro hafter hover
    unfold DeclaresOverOld at hover
    split at hover
    · rename_i g ctx actionId clientId join pick
      obtain ⟨hallows, r, hr, hdeclares, p, hp, hc, hold⟩ := hover
      obtain ⟨hstays, henc⟩ := handleJoin_declares g hs.wf hopen hallows hr hdeclares hc
      have hnew := hafter p (List.mem_append_left _ hp) r hstays henc
      omega
    · exact hover
  · intro hnot p hp r hc henc
    rcases List.mem_append.mp hp with hmem | hmem
    · have hold := serve_old hs hopen (hws.issued p hmem) hc
      obtain ⟨h, hhappens, hdoes⟩ := serve_happens hs hopen (hs.wf.live hold) req
      change ((s.serve u req).view r).encrypted = true at henc
      rw [hdoes.view] at henc
      by_contra hver
      have hplain : (s.roomAt r).encrypted = false := by
        by_contra hnow
        exact hver (hcapable p hmem r hold (Bool.eq_true_of_not_eq_false hnow))
      rcases apply_turnsOn hplain henc with rfl | ⟨peer, join, rfl, howner, hdeclared⟩
      · cases hhappens with
        | declared g ctx actionId clientId join pick hallows hr hrefuse hdeclares =>
          exact hnot ⟨hallows, r, hr, hdeclares, p, hmem, hold, Int.not_le.mp hver⟩
      · cases hhappens with
        | joined g ctx actionId clientId _ pick _ hallows hr haccept hpeer hne =>
          exact hnot ⟨hallows, r, hr, declares_of_accepted haccept howner hdeclared, p, hmem,
            hold, Int.not_le.mp hver⟩
    · obtain ⟨r', hw⟩ := joinAnswer_welcomed hs hopen (Option.mem_toList.mp hmem)
      obtain rfl := hw.room_unique hs hc
      exact hw.capable (hw.encrypted ▸ henc)

/-- In every run, encrypted rooms hold only clients that joined with a protocol for it in all of
its states exactly when no owner declares a room encrypted over an older client. -/
theorem capable_run_iff (u : UuidSource) (maxPeers : Int) (reqs : List Request) :
    (∀ pre, pre <+: reqs → Capable (serveAll u (newCollabService maxPeers) pre)
      (welcomes u (newCollabService maxPeers) pre)) ↔
    ∀ pre req, pre ++ [req] <+: reqs →
      ¬ DeclaresOverOld u (serveAll u (newCollabService maxPeers) pre)
        (welcomes u (newCollabService maxPeers) pre) req := by
  refine History.forall_prefix_iff ?_ fun pre req hcapable => ?_
  · intro p hp
    simp [welcomes] at hp
  · rw [welcomes_append, serveAll, List.foldl_append]
    exact Capable.serve_iff (.serveAll maxPeers pre) (.serveAll maxPeers pre)
      (.serveAll maxPeers pre) hcapable req

/-- The join of an owner that declares session `s1` encrypted. -/
def declareS1 : Request :=
  .handle (.direct 0) none { action := some (.join
    { sessionId := "s1", isOwner := true, protocolVersion := 2, encrypted := true }) } 0

/-- A client without encryption was there first, and the owner's declaration leaves it in. -/
theorem earlyViewer_notCapable : ¬ Capable
    (serveAll .unary (newCollabService 10) [joinS1 false "b1", declareS1])
    (welcomes .unary (newCollabService 10) [joinS1 false "b1", declareS1]) := by
  intro h
  have hviewer : ∃ p ∈ welcomes .unary (newCollabService 10) [joinS1 false "b1", declareS1],
      let s := serveAll .unary (newCollabService 10) [joinS1 false "b1", declareS1]
      p.2.clientId ∈ (s.roomAt 0).clients ∧ (s.roomAt 0).encrypted = true ∧
        p.1.protocolVersion < 2 := by
    decide
  obtain ⟨p, hp, hc, henc, hold⟩ := hviewer
  have := h p hp 0 hc henc
  omega

end CollabService

end MassRelay

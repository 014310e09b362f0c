import MassRelay.Lib.History
import MassRelay.Services.AtRest
import MassRelay.Services.RoomHistory

/-!
# MassRelay.Services.OwnerSettings

Who changes the title and the encryption flag of a room that has an owner.

Both are the owner's to change, and a join as owner is held against the owner there is. A
`CredentialsChanged` or `TitleChanged` is not: whoever is in the room has it carried out. A
join that is no owner's gives a room its first title, and an owner's join that is refused
may have declared the room encrypted before. These are the requests that intrude
(`Intrudes`). In a run without them the settings change by the owner alone, and leaving out
what others send of the two kinds changes nothing (`ownerSettings_run_iff`).

The ids that a run hands out are drawn one after another, so a request that is left out
leaves its id drawn (`serveSome`).
-/

namespace MassRelay

namespace CollabService

variable {u : UuidSource} {s s' : CollabService} {g : Goroutine} {ctx : Ctx} {join : JoinRoom}
variable {r : RoomRef} {x : String} {req : Request}

/-- The owner of room `r` is in it. -/
def Owned (s : CollabService) (r : RoomRef) : Prop :=
  (s.roomAt r).ownerClientId ∈ (s.roomAt r).clients

def settings (s : CollabService) (r : RoomRef) : Bool × String :=
  ((s.roomAt r).encrypted, (s.roomAt r).title)

/-- An action of the owner of room `r`, or a join as owner that is accepted. -/
def ByOwner (u : UuidSource) (s : CollabService) (r : RoomRef) : Request → Prop
  | .handle g ctx { action := some (.join join), .. } _ =>
    join.isOwner = true ∧ (s.handleJoin u g ctx join).2.refuses = false
  | .handle _ _ a _ => a.clientId = (s.roomAt r).ownerClientId
  | _ => False

/-- If the request changes the settings of a room with an owner, it is the owner's. -/
def OwnersOnly (u : UuidSource) (s : CollabService) (req : Request) : Prop :=
  ∀ r, s.Owned r → (s.serve u req).settings r ≠ s.settings r → ByOwner u s r req

/-- A request that changes the settings of a room with an owner, and is not the owner's. -/
def Intrudes (u : UuidSource) (s : CollabService) : Request → Prop
  | .handle _ _ { clientId := x, action := some (.credentialsChanged cc), .. } _ =>
    cc.reason = "password_removed" ∧ ∃ r, s.findRoomForClient x = some r ∧ s.Owned r ∧
      x ≠ (s.roomAt r).ownerClientId ∧ (s.roomAt r).encrypted = true
  | .handle _ _ { clientId := x, action := some (.titleChanged tc), .. } _ =>
    ∃ r, s.findRoomForClient x = some r ∧ s.Owned r ∧ x ≠ (s.roomAt r).ownerClientId ∧
      tc.title ≠ (s.roomAt r).title
  | .handle _ ctx { action := some (.join join), .. } _ =>
    allowsRoom ctx join.sessionId = true ∧
      ∃ r, s.getRoomByID (s.joinTarget u join) = some r ∧ s.Owned r ∧
        ((s.refuses join r = true ∧ s.declares join r = true ∧ (s.roomAt r).encrypted = false) ∨
          (s.refuses join r = false ∧ join.isOwner = false ∧ (s.roomAt r).title = "" ∧
            join.title ≠ ""))
  | _ => False

/-- A `CredentialsChanged` or `TitleChanged` in a room with an owner, by another client. -/
def foreign (s : CollabService) : Request → Bool
  | .handle _ _ { clientId := x, action := some (.credentialsChanged _), .. } _
  | .handle _ _ { clientId := x, action := some (.titleChanged _), .. } _ =>
    match s.findRoomForClient x with
    | some r => (s.roomAt r).ownerClientId ∈ (s.roomAt r).clients && x ≠ (s.roomAt r).ownerClientId
    | none => false
  | _ => false

/-- The run without its foreign requests, with their places left empty. -/
def withoutForeign (u : UuidSource) (s : CollabService) : List Request → List (Option Request)
  | [] => []
  | req :: reqs =>
    (if s.foreign req then none else some req) :: withoutForeign u (s.serve u req) reqs

/-- What is left out still has its id drawn. -/
def serveSome (u : UuidSource) (s : CollabService) : Option Request → CollabService
  | some req => s.serve u req
  | none => s.tick

/-- The settings of the room of session `sid`, if it has one. -/
def settingsOf (s : CollabService) (sid : String) : Option (Bool × String) :=
  (s.getRoomByID sid).map s.settings

theorem withoutForeign_append (u : UuidSource) (s : CollabService) (reqs : List Request)
    (req : Request) : withoutForeign u s (reqs ++ [req]) =
      withoutForeign u s reqs ++ [if (serveAll u s reqs).foreign req then none else some req] := by
  induction reqs generalizing s with
  | nil => rfl
  | cons req' reqs ih =>
    simp only [List.cons_append, withoutForeign, ih]
    rfl

/-! ### One request -/

theorem Happened.settings {h : Happening} (hdoes : Happened s s' r h) :
    s'.settings r = ((h.apply (s.view r)).encrypted, (h.apply (s.view r)).title) := by
  change ((s'.view r).encrypted, (s'.view r).title) = _
  rw [hdoes.view]

/-- What happens to the settings of a room with an owner is an intrusion or its owner's. -/
theorem intrudes_of_happens {h : Happening} (hhappens : Happens u s r req h) (howned : s.Owned r)
    (hsettings : ((h.apply (s.view r)).encrypted, (h.apply (s.view r)).title) ≠ s.settings r)
    (hnot : ¬ ByOwner u s r req) : Intrudes u s req := by
  cases hhappens with
  | messages req told => exact absurd rfl hsettings
  | relayed g ctx actionId x action pick event hfind hevent =>
    cases action with
    | credentialsChanged cc =>
      by_cases hreason : cc.reason = "password_removed"
      · refine ⟨hreason, r, hfind, howned, hnot, ?_⟩
        by_contra hplain
        refine hsettings ?_
        simp only [Happening.apply, if_pos hreason, CollabService.settings]
        rw [Bool.eq_false_of_not_eq_true hplain]
        rfl
      · refine absurd ?_ hsettings
        simp only [Happening.apply, if_neg hreason]
        rfl
    | titleChanged tc =>
      refine ⟨r, hfind, howned, hnot, fun htitle => hsettings ?_⟩
      simp only [Happening.apply, htitle]
      rfl
    | _ => exact absurd rfl hsettings
  -- refused all the same: the declaration stays
  | declared g ctx actionId clientId join pick hallows hr hrefuse hdeclares =>
    refine ⟨hallows, r, hr, howned, Or.inl ⟨hrefuse, hdeclares, ?_⟩⟩
    by_contra henc
    refine hsettings ?_
    rw [CollabService.settings, Bool.eq_true_of_not_eq_false henc]
    rfl
  | joined g ctx actionId clientId join pick peer hallows hr haccept hpeer hne =>
    have haccepted : (s.handleJoin u g ctx join).2.refuses = false := by
      rw [handleJoin_accepted hallows hr haccept]
      rfl
    -- an accepted join as the owner counts as the owner's
    have hviewer : join.isOwner = false := by
      by_contra howner
      exact hnot ⟨Bool.eq_true_of_not_eq_false howner, haccepted⟩
    refine ⟨hallows, r, hr, howned, Or.inr ⟨haccept, hviewer, ?_⟩⟩
    simp only [Happening.apply, hviewer, Bool.false_and, Bool.false_or] at hsettings
    by_cases htitle : (s.view r).title = ""
    · refine ⟨htitle, fun hjoin => hsettings ?_⟩
      rw [if_pos htitle, hjoin, ← htitle]
      rfl
    · rw [if_neg htitle] at hsettings
      exact absurd rfl hsettings
  | left g ctx actionId x leave pick hfind => exact absurd rfl hsettings
  | moved g ctx actionId x leave pick successor hfind => exact absurd rfl hsettings
  | ended g ctx actionId x leave pick hfind => exact absurd rfl hsettings

theorem ownersOnly_iff (hs : RoomInv u s) (hopen : ChansOpen s) (req : Request) :
    OwnersOnly u s req ↔ ¬ Intrudes u s req := by
  constructor
  -- each kind of intrusion changes a setting, so its sender would be the owner
  · intro honly hintrudes
    unfold Intrudes at hintrudes
    split at hintrudes
    · rename_i g ctx actionId x cc pick
      obtain ⟨hreason, r, hfind, howned, hx, henc⟩ := hintrudes
      have hdoes : Does u s _ r (.relayed x (.credentialsChanged cc)) :=
        fanOut_does (g := g) hs.wf hopen hfind rfl rfl rfl
      refine hx (honly r howned fun hsame => ?_)
      have hnew := congrArg Prod.fst (hdoes.toHappened.settings.symm.trans hsame)
      simp only [Happening.apply, if_pos hreason, CollabService.settings, henc] at hnew
      exact Bool.false_ne_true hnew
    · rename_i g ctx actionId x tc pick
      obtain ⟨r, hfind, howned, hx, htitle⟩ := hintrudes
      have hdoes : Does u s _ r (.relayed x (.titleChanged tc)) :=
        fanOut_does (g := g) hs.wf hopen hfind rfl rfl rfl
      refine hx (honly r howned fun hsame => htitle ?_)
      exact congrArg Prod.snd (hdoes.toHappened.settings.symm.trans hsame)
    · rename_i g ctx actionId clientId join pick
      obtain ⟨hallows, r, hr, howned, ⟨hrefuse, hdeclares, henc⟩ |
        ⟨haccept, hviewer, htitle, hjoin⟩⟩ := hintrudes
      · have hdoes := handleJoin_declared (u := u) g hallows hr hrefuse hdeclares
        have hby := (honly r howned fun hsame => ?_).2
        · have hrefused : (s.handleJoin u g ctx join).2.refuses = true := by
            rw [handleJoin_refuses_iff, turnedAway, hr]
            exact Or.inr hrefuse
          rw [hrefused] at hby
          exact Bool.false_ne_true hby.symm
        · have hnew := congrArg Prod.fst (hdoes.toHappened.settings.symm.trans hsame)
          rw [CollabService.settings, henc] at hnew
          exact Bool.false_ne_true hnew.symm
      · obtain ⟨peer, -, -, hdoes⟩ := handleJoin_joined g hs.wf hopen hallows hr haccept
        have hby := (honly r howned fun hsame => ?_).1
        · rw [hviewer] at hby
          exact Bool.false_ne_true hby
        · have hnew := congrArg Prod.snd (hdoes.toHappened.settings.symm.trans hsame)
          refine hjoin (Eq.trans ?_ (hnew.trans htitle))
          exact (if_pos htitle).symm
    · exact hintrudes
  -- a change of settings comes of one of the things that happen to a room
  · intro hnot r howned hchanged
    by_contra hby
    obtain ⟨h, hhappens, hdoes⟩ := serve_happens hs hopen (hs.wf.live howned) req
    rw [hdoes.settings] at hchanged
    exact hnot (intrudes_of_happens hhappens howned hchanged hby)

/-! ### Without the foreign requests -/

theorem noteRelayed_eq_self {action : Action}
    (henc : ∀ cc, action = .credentialsChanged cc → cc.reason = "password_removed" →
      (s.roomAt r).encrypted = false)
    (htitle : ∀ tc, action = .titleChanged tc → tc.title = (s.roomAt r).title) :
    s.noteRelayed r action = s := by
  have hsame : ∀ room : CollabRoom, room = s.roomAt r → (s.modifyRoom r fun _ => room) = s := by
    rintro room rfl
    rw [modifyRoom, Function.update_eq_self]
  cases action with
  | credentialsChanged cc =>
    simp only [noteRelayed]
    split
    · rename_i hreason
      refine hsame _ ?_
      rw [← henc cc rfl hreason]
    · rfl
  | titleChanged tc =>
    refine hsame _ ?_
    rw [htitle tc rfl]
  | _ => rfl

/-- A foreign request that does not intrude changes nothing but the traffic. -/
theorem serve_foreign (hforeign : s.foreign req = true) (hnot : ¬ Intrudes u s req) :
    SameRest (s.serve u req) s.tick := by
  -- it is relayed in a room that its client does not own
  have hrelay : ∀ (g : Goroutine) (action : Action) {x : String} {event : Event} {r : RoomRef},
      s.findRoomForClient x = some r → relayed action = some event → addressed? action = none →
      s.tick.noteRelayed r action = s.tick →
      SameRest (s.handleBroadcast u g x action).1 s.tick := by
    intro g action x event r hfind hrelayed haddressed hnoted
    rw [handleBroadcast_fanOut hfind hrelayed haddressed, hnoted]
    exact deliverAll_atRest g s.tick _
  have hroom : ∀ {x : String}, (match s.findRoomForClient x with
      | some r => (s.roomAt r).ownerClientId ∈ (s.roomAt r).clients &&
        x ≠ (s.roomAt r).ownerClientId
      | none => false) = true →
      ∃ r, s.findRoomForClient x = some r ∧ s.Owned r ∧ x ≠ (s.roomAt r).ownerClientId := by
    intro x hx
    split at hx
    · rename_i r hfind
      simp only [Bool.and_eq_true, decide_eq_true_eq] at hx
      exact ⟨r, hfind, hx⟩
    · simp at hx
  unfold foreign at hforeign
  split at hforeign
  · rename_i g ctx actionId x cc pick
    obtain ⟨r, hfind, howned, hx⟩ := hroom hforeign
    refine hrelay g (.credentialsChanged cc) hfind rfl rfl (noteRelayed_eq_self ?_ ?_)
    · rintro _ ⟨⟩ hreason
      by_contra henc
      exact hnot ⟨hreason, r, hfind, howned, hx, Bool.eq_true_of_not_eq_false henc⟩
    · simp
  · rename_i g ctx actionId x tc pick
    obtain ⟨r, hfind, howned, hx⟩ := hroom hforeign
    refine hrelay g (.titleChanged tc) hfind rfl rfl (noteRelayed_eq_self ?_ ?_)
    · simp
    · rintro _ ⟨⟩
      by_contra htitle
      exact hnot ⟨r, hfind, howned, hx, htitle⟩
  · simp at hforeign

/-- In a run in which nobody intrudes, the foreign requests leave no trace at rest. -/
theorem sameRest_withoutForeign {maxPeers : Int} {reqs : List Request}
    (hnot : ∀ pre req, pre ++ [req] <+: reqs →
      ¬ Intrudes u (serveAll u (newCollabService maxPeers) pre) req) :
    ∀ pre, pre <+: reqs → SameRest (serveAll u (newCollabService maxPeers) pre)
      ((withoutForeign u (newCollabService maxPeers) pre).foldl (serveSome u)
        (newCollabService maxPeers)) := by
  refine History.forall_prefix (.refl _) fun pre req hpre ih => ?_
  rw [withoutForeign_append, List.foldl_append, serveAll, List.foldl_append]
  simp only [List.foldl_cons, List.foldl_nil]
  split
  · rename_i hforeign
    exact (serve_foreign hforeign (hnot pre req hpre)).trans ih.tick
  · exact ih.serve req

/-- In every run, the settings of a room with an owner change by the owner alone, and without
what the others send of `CredentialsChanged` and `TitleChanged` the settings are the same in
all of its states, exactly when nobody intrudes. -/
theorem ownerSettings_run_iff (u : UuidSource) (maxPeers : Int) (reqs : List Request) :
    ((∀ pre req, pre ++ [req] <+: reqs →
        OwnersOnly u (serveAll u (newCollabService maxPeers) pre) req) ∧
      ∀ pre, pre <+: reqs → (serveAll u (newCollabService maxPeers) pre).settingsOf =
        ((withoutForeign u (newCollabService maxPeers) pre).foldl (serveSome u)
          (newCollabService maxPeers)).settingsOf) ↔
    ∀ pre req, pre ++ [req] <+: reqs →
      ¬ Intrudes u (serveAll u (newCollabService maxPeers) pre) req := by
  constructor
  · rintro ⟨honly, -⟩ pre req hpre
    exact (ownersOnly_iff (.serveAll maxPeers pre) (.serveAll maxPeers pre) req).mp
      (honly pre req hpre)
  · intro hnot
    refine ⟨fun pre req hpre => ?_, fun pre hpre => ?_⟩
    · exact (ownersOnly_iff (.serveAll maxPeers pre) (.serveAll maxPeers pre) req).mpr
        (hnot pre req hpre)
    · exact (sameRest_withoutForeign hnot pre hpre).read settingsOf

/-- A join of session `s1` by a client that knows encryption. -/
def capableS1 (isOwner : Bool) : Request :=
  .handle (.direct 0) none { action := some (.join
    { sessionId := "s1", isOwner, protocolVersion := 2, encrypted := isOwner }) } 0

/-- Client `c` says that the password is gone. -/
def removePassword (c : String) : Request :=
  .handle (.direct 0) none { clientId := c
                             action := some (.credentialsChanged ⟨"password_removed"⟩) } 0

/-- A viewer says that the password is gone, and the relay takes its word for it. -/
theorem viewer_removesPassword :
    let reqs := [capableS1 true, capableS1 false, removePassword "uuuu"]
    ¬ ((∀ pre req, pre ++ [req] <+: reqs →
        OwnersOnly .unary (serveAll .unary (newCollabService 10) pre) req) ∧
      ∀ pre, pre <+: reqs → (serveAll .unary (newCollabService 10) pre).settingsOf =
        ((withoutForeign .unary (newCollabService 10) pre).foldl (serveSome .unary)
          (newCollabService 10)).settingsOf) := by
  rintro reqs ⟨-, hsame⟩
  have hdiffer : (serveAll .unary (newCollabService 10) reqs).settingsOf "s1" ≠
      ((withoutForeign .unary (newCollabService 10) reqs).foldl (serveSome .unary)
        (newCollabService 10)).settingsOf "s1" := by
    decide
  exact hdiffer (congrFun (hsame reqs List.prefix_rfl) "s1")

end CollabService

end MassRelay
